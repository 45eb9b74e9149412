import ChangeImpact.Change.ChangeSet

/-!
# Unified diffs

A diff text is cut into lines and read as one section for each line that begins a file. Header
lines before the first hunk give the path and the status; everything behind a hunk header
belongs to that hunk, whatever it looks like.
-/

namespace ChangeImpact

structure Hunk where
  oldStart : Int
  oldCount : Int
  newStart : Int
  newCount : Int
  lines : List String := []
  deriving Repr, DecidableEq

structure FileDiff where
  path : String
  status : ChangeStatus := .modified
  oldPath : Option String := none
  hunks : List Hunk := []
  addedLines : Nat := 0
  deletedLines : Nat := 0
  deriving Repr, DecidableEq

namespace Hunk

def marked? (mark : Char) (line : String) : Option String :=
  match line.toList with
  | c :: r => if c == mark then some (String.ofList r) else none
  | [] => none

def removed (h : Hunk) : List String := h.lines.filterMap (marked? '-')

def added (h : Hunk) : List String := h.lines.filterMap (marked? '+')

/-- Lines with the number that the first of them has in the new file. Removed lines and the
note on a missing line end have no number there. -/
def numberFrom (n : Int) : List String → List (Int × String)
  | [] => []
  | line :: r =>
    match line.toList with
    | '+' :: text => (n, String.ofList text) :: numberFrom (n + 1) r
    | '-' :: _ => numberFrom n r
    | '\\' :: _ => numberFrom n r
    | _ => numberFrom (n + 1) r

def numberedAdditions (h : Hunk) : List (Int × String) := numberFrom h.newStart h.lines

end Hunk

namespace FileDiff

def spans (d : FileDiff) : List (Int × Int) :=
  d.hunks.map fun h => (h.newStart, h.newStart + h.newCount)

end FileDiff

namespace Diff

open Text

inductive DiffError where
  | number (e : IntegerError)
  deriving Repr, DecidableEq

def digits? (s : List Char) : Option (List Char × List Char) :=
  if (s.takeWhile isDigit).isEmpty then none
  else some (s.takeWhile isDigit, s.dropWhile isDigit)

def range? (s : List Char) : Option (List Char × Option (List Char) × List Char) := do
  let (start, r) ← digits? s
  match (after? [','] r).bind digits? with
  | some (count, r) => pure (start, some count, r)
  | none => pure (start, none, r)

def header? (line : List Char) :
    Option ((List Char × Option (List Char)) × (List Char × Option (List Char))) := do
  let r ← after? "@@ -".toList line
  let (oldStart, oldCount, r) ← range? r
  let r ← after? " +".toList r
  let (newStart, newCount, r) ← range? r
  let _ ← after? " @@".toList r
  pure ((oldStart, oldCount), (newStart, newCount))

def number (s : List Char) : Except DiffError Int :=
  (readInteger (String.ofList s)).mapError .number

def count (s : Option (List Char)) : Except DiffError Int :=
  match s with
  | some s => number s
  | none => .ok 1

def sectionMark : List Char := "diff --git ".toList

def sections : List (List Char) → List (List Char × List (List Char))
  | [] => []
  | line :: r =>
    if sectionMark.isPrefixOf line then
      (line, r.takeWhile fun l => !sectionMark.isPrefixOf l) :: sections r
    else sections r

def lastPath (line : List Char) : List Char :=
  match line with
  | [] => []
  | c :: r =>
    let later := lastPath r
    if later.length < r.length then later
    else match after? " b/".toList (c :: r) with
      | some path => path
      | none => c :: r

def applyHeader (d : FileDiff) (line : List Char) : FileDiff :=
  let behind (start : String) : Option String :=
    (after? start.toList line).map String.ofList
  if (behind "new file").isSome then { d with status := .added }
  else if (behind "deleted file").isSome then { d with status := .deleted }
  else if let some p := behind "rename from " then
    { d with oldPath := some p, status := .renamed }
  else if let some p := behind "rename to " then { d with path := p }
  else if (behind "Binary files").isSome then { d with status := .binary }
  else if let some p := behind "+++ b/" then { d with path := p }
  else d

def addLine (d : FileDiff) (h : Hunk) (line : List Char) : FileDiff × Hunk :=
  let h := { h with lines := h.lines ++ [String.ofList line] }
  match line with
  | '+' :: _ => ({ d with addedLines := d.addedLines + 1 }, h)
  | '-' :: _ => ({ d with deletedLines := d.deletedLines + 1 }, h)
  | _ => (d, h)

def close (d : FileDiff) (open_ : Option Hunk) : FileDiff :=
  match open_ with
  | some h => { d with hunks := d.hunks ++ [h] }
  | none => d

def readLines (d : FileDiff) (open_ : Option Hunk) :
    List (List Char) → Except DiffError FileDiff
  | [] => .ok (close d open_)
  | line :: r =>
    match header? line with
    | some ((oldStart, oldCount), (newStart, newCount)) =>
      match number oldStart, count oldCount, number newStart, count newCount with
      | .ok os, .ok oc, .ok ns, .ok nc => readLines (close d open_) (some ⟨os, oc, ns, nc, []⟩) r
      | .error e, _, _, _ => .error e
      | _, .error e, _, _ => .error e
      | _, _, .error e, _ => .error e
      | _, _, _, .error e => .error e
    | none =>
      match open_ with
      | none => readLines (applyHeader d line) none r
      | some h =>
        let (d, h) := addLine d h line
        readLines d (some h) r

def readSection (s : List Char × List (List Char)) : Except DiffError FileDiff :=
  readLines { path := String.ofList (lastPath s.1) } none s.2

def read (text : String) : Except DiffError (List FileDiff) :=
  (sections (lines text.toList)).mapM readSection

def changeSet (ds : List FileDiff) : ChangeSet :=
  ⟨(ds.filter (·.path != "")).map fun d =>
    { path := d.path, additions := d.addedLines, deletions := d.deletedLines, status := d.status }⟩

end Diff

end ChangeImpact
