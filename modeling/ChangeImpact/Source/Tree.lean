import ChangeImpact.Path.Basic
import ChangeImpact.Text.Utf8

/-!
# File trees

A file holds bytes; a folder holds named trees. Paths are followed part by part as a disk does
it: only a folder can be left through its parent mark, and nothing lies inside a file.
-/

namespace ChangeImpact

open Text.Utf8 (Bytes)

inductive Tree where
  | file (content : Bytes)
  | folder (entries : List (String × Tree))

namespace Tree

def empty : Tree := .folder []

def isFolder : Tree → Bool
  | .folder _ => true
  | .file _ => false

def isFile (t : Tree) : Bool := !t.isFolder

def entries : Tree → List (String × Tree)
  | .folder es => es
  | .file _ => []

mutual

def size : Tree → Nat
  | .file _ => 1
  | .folder es => 1 + sizes es

def sizes : List (String × Tree) → Nat
  | [] => 0
  | (_, t) :: r => t.size + sizes r

end

/-- Follows `parts` from the first tree of `trail`; the others are the folders above it. -/
def follow (trail : List Tree) : List String → Option Tree
  | [] => trail.head?
  | p :: r =>
    match trail with
    | .folder es :: above =>
      if p == ".." then follow (if above.isEmpty then trail else above) r
      else match es.lookup p with
        | some t => follow (t :: trail) r
        | none => none
    | _ => none

def at? (t : Tree) (p : Path) : Option Tree := follow [t] p.parts

def leadsThroughFile (t : Tree) (p : Path) : Bool :=
  (List.range p.parts.length).any fun n => (follow [t] (p.parts.take n)).any isFile

def nameLimit : Nat := 255

def pathLimit : Nat := 4096

def asksOverlongName (trail : List Tree) : List String → Bool
  | [] => false
  | p :: r =>
    match trail with
    | .folder es :: above =>
      if p == ".." then asksOverlongName (if above.isEmpty then trail else above) r
      else
        nameLimit < p.utf8ByteSize ||
          match es.lookup p with
          | some t => asksOverlongName (t :: trail) r
          | none => false
    | _ => false

/-- The disk refuses to look a path up, because it or a name in it is too long. -/
def refuses (t : Tree) (p : Path) : Bool :=
  !p.holdsNull && (pathLimit ≤ p.text.utf8ByteSize || asksOverlongName [t] p.parts)

def isFileAt (t : Tree) (p : Path) : Bool := (t.at? p).any isFile

def isFolderAt (t : Tree) (p : Path) : Bool := (t.at? p).any isFolder

def setEntry (name : String) (t : Tree) : List (String × Tree) → List (String × Tree)
  | [] => [(name, t)]
  | (n, u) :: r => if n == name then (n, t) :: r else (n, u) :: setEntry name t r

def put (new : Tree) : List String → Tree → Tree
  | [], _ => new
  | p :: r, t =>
    .folder (setEntry p (put new r ((t.entries.lookup p).getD empty)) t.entries)

def makeFolder : List String → Tree → Tree
  | [], t => t
  | p :: r, t =>
    .folder (setEntry p (makeFolder r ((t.entries.lookup p).getD empty)) t.entries)

def remove : List String → Tree → Tree
  | [], t => t
  | [p], t => .folder (t.entries.filter (·.1 != p))
  | p :: r, t =>
    match t.entries.lookup p with
    | some u => .folder (setEntry p (remove r u) t.entries)
    | none => t

def write (t : Tree) (p : Path) (content : Bytes) : Tree := put (.file content) p.parts t

def withFolder (t : Tree) (p : Path) : Tree := makeFolder p.parts t

def without (t : Tree) (p : Path) : Tree := remove p.parts t

end Tree

end ChangeImpact
