import ChangeImpact.Proofs.Change.Sections

/-!
# Files with their headers

The header of a written file tells what has become of the file. It names the path in the first
line, in the line of the new name and in the line of the new side, but not each of them stands in
every header. The main result says which files are read with the path and the status that they have.
-/

namespace ChangeImpact.Diff

open Text

def isUnquoted (c : Char) : Bool :=
  32 ≤ c.toNat && c.toNat < 127 && c != '"' && c != '\\'

structure PlainPath where
  text : List Char
  unquoted : ∀ c ∈ text, isUnquoted c = true
  deriving DecidableEq

theorem PlainPath.noLineEnd (p : PlainPath) : ∀ c ∈ p.text, isLineEnd c = false := by
  intro c hc
  have h := p.unquoted c hc
  simp only [isUnquoted, Bool.and_eq_true, decide_eq_true_eq] at h
  simp only [isLineEnd, Bool.or_eq_false_iff, Bool.and_eq_false_iff, decide_eq_false_iff_not,
    beq_eq_false_iff_ne]
  omega

def detailStarts : List String :=
  ["old mode ", "new mode ", "similarity index ", "dissimilarity index ", "index "]

def headerStarts : List String :=
  detailStarts ++ ["new file mode ", "deleted file mode ", "rename from ", "rename to ", "--- ",
    "+++ ", "Binary files "]

structure HeaderLine where
  start : String
  rest : List Char
  start_mem : start ∈ headerStarts
  noLineEnd : ∀ c ∈ rest, isLineEnd c = false

def HeaderLine.text (l : HeaderLine) : List Char := l.start.toList ++ l.rest

structure Detail extends HeaderLine where
  isDetail : start ∈ detailStarts

inductive Fate where
  | added (mode : Nat)
  | modified
  | deleted (mode : Nat)
  | renamed (source : PlainPath)
  | modeChanged (old new : Nat)
  deriving DecidableEq

inductive Content where
  | text (hunks : List WrittenHunk)
  | binary
  deriving DecidableEq

structure HeadedFile where
  path : PlainPath
  fate : Fate
  content : Content
  above : List Detail := []
  below : List Detail := []

def ended (name : List Char) : List Char := name ++ if ' ' ∈ name then ['\t'] else []

theorem noLineEnd_ended {name : List Char} (h : ∀ c ∈ name, isLineEnd c = false) :
    ∀ c ∈ ended name, isLineEnd c = false := by
  refine List.forall_mem_append.mpr ⟨h, ?_⟩
  split
  · exact noLineEnd_of_all (by decide)
  · exact List.forall_mem_nil _

theorem ended_eq_self {name : List Char} : ended name = name ↔ ' ' ∉ name := by
  rw [ended]
  split <;> simp_all

theorem ended_cons {c : Char} (hc : c ≠ ' ') (name : List Char) :
    ended (c :: name) = c :: ended name := by
  simp [ended, Ne.symm hc]

namespace HeadedFile

variable (f : HeadedFile)

def source : PlainPath :=
  match f.fate with
  | .renamed source => source
  | _ => f.path

def hunks : List WrittenHunk :=
  match f.content with
  | .text hunks => hunks
  | .binary => []

def oldSide : List Char :=
  match f.fate with
  | .added _ => "/dev/null".toList
  | _ => "a/".toList ++ f.source.text

def newSide : List Char :=
  match f.fate with
  | .deleted _ => "/dev/null".toList
  | _ => "b/".toList ++ f.path.text

theorem noLineEnd_oldSide : ∀ c ∈ f.oldSide, isLineEnd c = false := by
  unfold oldSide
  split
  · exact noLineEnd_of_all (by decide)
  · exact List.forall_mem_append.mpr ⟨noLineEnd_of_all (by decide), f.source.noLineEnd⟩

theorem noLineEnd_newSide : ∀ c ∈ f.newSide, isLineEnd c = false := by
  unfold newSide
  split
  · exact noLineEnd_of_all (by decide)
  · exact List.forall_mem_append.mpr ⟨noLineEnd_of_all (by decide), f.path.noLineEnd⟩

def fateLines : List HeaderLine :=
  match f.fate with
  | .added mode =>
    [⟨"new file mode ", Decimal.digits mode, by decide, fun _ => isLineEnd_of_mem_digits⟩]
  | .modified => []
  | .deleted mode =>
    [⟨"deleted file mode ", Decimal.digits mode, by decide, fun _ => isLineEnd_of_mem_digits⟩]
  | .renamed source =>
    [⟨"rename from ", source.text, by decide, source.noLineEnd⟩,
      ⟨"rename to ", f.path.text, by decide, f.path.noLineEnd⟩]
  | .modeChanged old new =>
    [⟨"old mode ", Decimal.digits old, by decide, fun _ => isLineEnd_of_mem_digits⟩,
      ⟨"new mode ", Decimal.digits new, by decide, fun _ => isLineEnd_of_mem_digits⟩]

def binaryText : List Char := f.oldSide ++ " and ".toList ++ f.newSide ++ " differ".toList

theorem noLineEnd_binaryText : ∀ c ∈ f.binaryText, isLineEnd c = false := by
  simp only [binaryText, List.forall_mem_append]
  exact ⟨⟨⟨f.noLineEnd_oldSide, noLineEnd_of_all (by decide)⟩, f.noLineEnd_newSide⟩,
    noLineEnd_of_all (by decide)⟩

def contentLines : List HeaderLine :=
  match f.content with
  | .text [] => []
  | .text (_ :: _) =>
    [⟨"--- ", ended f.oldSide, by decide, noLineEnd_ended f.noLineEnd_oldSide⟩,
      ⟨"+++ ", ended f.newSide, by decide, noLineEnd_ended f.noLineEnd_newSide⟩]
  | .binary => [⟨"Binary files ", f.binaryText, by decide, f.noLineEnd_binaryText⟩]

def headers : List HeaderLine :=
  f.above.map (·.toHeaderLine) ++ f.fateLines ++ f.below.map (·.toHeaderLine) ++ f.contentLines

def status : ChangeStatus :=
  match f.fate, f.content with
  | .added _, _ => .added
  | .deleted _, _ => .deleted
  | .renamed _, _ => .renamed
  | .modified, .text _ | .modeChanged _ _, .text _ => .modified
  | .modified, .binary | .modeChanged _ _, .binary => .binary

def oldPath : Option String :=
  match f.fate with
  | .renamed source => some (String.ofList source.text)
  | _ => none

end HeadedFile

theorem headerStarts_plain : ∀ start ∈ headerStarts, (∀ c ∈ start.toList, isLineEnd c = false) ∧
    ∀ rest, sectionMark.isPrefixOf (start.toList ++ rest) = false ∧
      header? (start.toList ++ rest) = none := by
  simp only [headerStarts, detailStarts, List.cons_append, List.nil_append, List.forall_mem_cons]
  refine ⟨?_, ?_, ?_, ?_, ?_, ?_, ?_, ?_, ?_, ?_, ?_, ?_, List.forall_mem_nil _⟩
  all_goals exact ⟨noLineEnd_of_all (by decide), fun _ => ⟨rfl, rfl⟩⟩

theorem HeaderLine.noLineEnd_text (l : HeaderLine) : ∀ c ∈ l.text, isLineEnd c = false :=
  List.forall_mem_append.mpr ⟨(headerStarts_plain l.start l.start_mem).1, l.noLineEnd⟩

theorem HeaderLine.text_plain (l : HeaderLine) :
    sectionMark.isPrefixOf l.text = false ∧ header? l.text = none :=
  (headerStarts_plain l.start l.start_mem).2 l.rest

namespace HeadedFile

variable (f : HeadedFile)

def written : WrittenFile where
  name := "a/".toList ++ f.source.text ++ pathMark ++ f.path.text
  headers := f.headers.map HeaderLine.text
  hunks := f.hunks
  name_line := by
    simp only [List.forall_mem_append]
    exact ⟨⟨⟨noLineEnd_of_all (by decide), f.source.noLineEnd⟩, noLineEnd_of_all (by decide)⟩,
      f.path.noLineEnd⟩
  headers_line := List.forall_mem_map.mpr fun l _ => l.noLineEnd_text
  headers_plain := List.forall_mem_map.mpr fun l _ => l.text_plain

def readPath : List Char :=
  match f.fate, f.content with
  | .deleted _, _ => lastPath f.path.text
  | _, .text (_ :: _) => ended f.path.text
  | .renamed _, _ => f.path.text
  | _, _ => lastPath f.path.text

def readStatus : ChangeStatus :=
  match f.content with
  | .text _ => f.status
  | .binary => .binary

theorem applyHeader_detail (d : FileDiff) (l : Detail) : applyHeader d l.text = d := by
  obtain ⟨⟨start, rest, -, -⟩, h⟩ := l
  simp only [detailStarts, List.mem_cons, List.not_mem_nil, or_false] at h
  rcases h with rfl | rfl | rfl | rfl | rfl <;> simp [HeaderLine.text, applyHeader, after?]

theorem foldl_applyHeader_details (d : FileDiff) (ls : List Detail) :
    ((ls.map (·.toHeaderLine)).map HeaderLine.text).foldl applyHeader d = d := by
  induction ls with
  | nil => rfl
  | cons l ls ih =>
    rw [List.map_cons, List.map_cons, List.foldl_cons, applyHeader_detail, ih]

theorem face_headers : face ((f.headers.map HeaderLine.text).foldl applyHeader
    { path := String.ofList (lastPath f.written.firstLine) }) =
      (String.ofList f.readPath, f.readStatus, f.oldPath) := by
  have hfirst : lastPath f.written.firstLine = lastPath f.path.text := by
    have happend := lastPath_append (sectionMark ++ ("a/".toList ++ f.source.text)) f.path.text
    simpa [WrittenFile.firstLine, written, List.append_assoc] using happend
  rw [hfirst, headers]
  simp only [List.map_append, List.foldl_append, foldl_applyHeader_details]
  obtain ⟨path, fate, content, above, below⟩ := f
  rcases fate with mode | _ | mode | source | ⟨old, new⟩ <;>
    rcases content with (_ | ⟨h, hs⟩) | _ <;>
    simp [face, fateLines, contentLines, newSide, HeaderLine.text, applyHeader, after?, ended_cons,
      readPath, readStatus, status, oldPath]

theorem face_of_readSection {d : FileDiff}
    (h : readSection (f.written.firstLine, f.written.body) = .ok d) :
    face d = (String.ofList f.readPath, f.readStatus, f.oldPath) := by
  rw [readSection, WrittenFile.body,
    readLines_headers _ (fun s hs => (f.written.headers_plain s hs).2)] at h
  rw [face_of_readLines_hunks h, ← f.face_headers]
  rfl

/-- The diff of the file alone is read as one file with its path, its status and the path that it
had before. -/
def IsShown : Prop :=
  ∃ d, read (render [f.written]) = .ok [d] ∧ d.path = String.ofList f.path.text ∧
    d.status = f.status ∧ d.oldPath = f.oldPath

theorem contained_iff {f : WrittenFile} : (∀ h ∈ f.hunks, h.Contained) ↔
    (∀ s ∈ f.body, isFirst s = false) ∧ ∃ d, readSection (f.firstLine, f.body) = .ok d := by
  have hcounted : (∃ d, readSection (f.firstLine, f.body) = .ok d) ↔ ∀ s ∈ f.body, IsCounted s :=
    exists_readLines_iff _ _ _
  rw [hcounted, isFirst_body, isCounted_body]
  constructor
  · intro hall
    exact ⟨fun h hh => (hall h hh).begins_none,
      fun h hh => ⟨(hall h hh).numbered, (hall h hh).counted⟩⟩
  · intro hboth h hh
    exact ⟨(hboth.2 h hh).1, hboth.1 h hh, (hboth.2 h hh).2⟩

theorem isShown_iff_read : f.IsShown ↔ f.readPath = f.path.text ∧ f.readStatus = f.status ∧
    ∀ h ∈ f.written.hunks, h.Contained := by
  simp only [IsShown, read_eq_singleton, contained_iff]
  constructor
  · intro h
    obtain ⟨d, ⟨hfirst, hread⟩, hpath, hstatus, -⟩ := h
    have hface := f.face_of_readSection hread
    simp only [face, Prod.mk.injEq] at hface
    exact ⟨String.ofList_injective (hface.1.symm.trans hpath), hface.2.1.symm.trans hstatus,
      hfirst, d, hread⟩
  · intro h
    obtain ⟨hpath, hstatus, hfirst, d, hread⟩ := h
    have hface := f.face_of_readSection hread
    simp only [face, Prod.mk.injEq, hpath, hstatus] at hface
    exact ⟨d, ⟨hfirst, hread⟩, hface⟩

/-- A name above the hunks must not have a blank. Where the path comes from the first line, it must
not hold what stands in front of it there. -/
def KeepsPath : Prop :=
  match f.fate, f.content with
  | .deleted _, _ => ¬ pathMark <:+: f.path.text
  | _, .text (_ :: _) => ' ' ∉ f.path.text
  | .renamed _, _ => True
  | _, _ => ¬ pathMark <:+: f.path.text

def KeepsStatus : Prop :=
  match f.fate, f.content with
  | .added _, .binary | .deleted _, .binary | .renamed _, .binary => False
  | _, _ => True

theorem readPath_eq_iff : f.readPath = f.path.text ↔ f.KeepsPath := by
  unfold readPath KeepsPath
  split
  · exact lastPath_eq_iff
  · exact ended_eq_self
  · exact iff_of_true rfl trivial
  · exact lastPath_eq_iff

theorem readStatus_eq_iff : f.readStatus = f.status ↔ f.KeepsStatus := by
  obtain ⟨path, fate, content, above, below⟩ := f
  cases fate <;> cases content <;> simp [readStatus, status, KeepsStatus]

/-- Path and status are shown just when they are kept and no hunk reaches beyond itself. -/
theorem isShown_iff : f.IsShown ↔ f.KeepsPath ∧ f.KeepsStatus ∧ ∀ h ∈ f.hunks, h.Contained := by
  rw [isShown_iff_read, readPath_eq_iff, readStatus_eq_iff]
  rfl

end HeadedFile

def blankFile : HeadedFile where
  path := ⟨"my notes.txt".toList, List.all_eq_true.mp (by decide)⟩
  fate := .modified
  content := .text
    [{ oldStart := 1, newStart := 2, shortNew := true, lines := [⟨.added, "two".toList⟩] }]

def doubleFile : HeadedFile where
  path := ⟨"a b/c.sh".toList, List.all_eq_true.mp (by decide)⟩
  fate := .modeChanged 100644 100755
  content := .text []

theorem not_isShown_blank : ¬ blankFile.IsShown ∧ ¬ doubleFile.IsShown :=
  ⟨fun h => absurd (blankFile.isShown_iff_read.mp h).1 (by decide),
    fun h => absurd (doubleFile.isShown_iff_read.mp h).1 (by decide)⟩

end ChangeImpact.Diff
