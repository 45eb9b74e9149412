import ChangeImpact.Proofs.Change.Headed

/-!
# Modified files and their hunks

Of a diff that modifies files, the reader gives back the files with their hunks: the numbers of
each header and all lines below it. Whatever a line of a hunk holds behind its mark is text of
that line, also where it looks like the beginning of a file or of another hunk.
-/

namespace ChangeImpact.Diff

open Text

namespace WrittenHunk

def meant (h : WrittenHunk) : Hunk :=
  ⟨h.oldStart, h.oldCount, h.newStart, h.newCount,
    (h.lines.map WrittenLine.text).map String.ofList⟩

end WrittenHunk

theorem readNumbers_text (n : Nat) (ls : List WrittenLine) :
    readNumbers n (ls.map WrittenLine.text) = writtenNumbers n ls := by
  induction ls generalizing n with
  | nil => rfl
  | cons l ls ih =>
    have hnext := ih (n + 1)
    push_cast at hnext
    rw [List.map_cons, readNumbers_cons, writtenNumbers_cons, WrittenLine.text]
    cases l.mark <;> simp [Mark.char, ih, hnext]

namespace WrittenHunk

variable {h : WrittenHunk}

theorem body_eq (hlines : ∀ l ∈ h.lines, ∀ c ∈ l.content, isLineEnd c = false) :
    h.body = Text.strays h.heading ++ h.lines.map WrittenLine.text := by
  have hread : ∀ l ∈ h.lines, l.read = [l.text] := fun l hl => by
    have hpieces := pieces_of_noLineEnd (hlines l hl)
    rw [WrittenLine.read, first, Text.strays, hpieces, WrittenLine.text, List.headD_cons,
      List.tail_cons]
  rw [body, List.flatMap_congr hread, ← List.map_eq_flatMap]

theorem opened_eq_meant_iff (hlines : ∀ l ∈ h.lines, ∀ c ∈ l.content, isLineEnd c = false) :
    h.opened = h.meant ↔ Text.strays h.heading = [] := by
  simp only [opened, meant, body_eq hlines, Hunk.mk.injEq, true_and, List.map_append]
  exact List.append_left_eq_self.trans List.map_eq_nil_iff

theorem numberedAdditions_meant (h : WrittenHunk) :
    h.meant.numberedAdditions.map (·.1) = h.numbers :=
  readNumbers_text h.newStart h.lines

end WrittenHunk

/-- A modified file as it is written. The lines above its hunks may tell of modes and objects, and
may name the two sides. -/
structure ModifiedFile where
  path : List Char
  details : List Detail := []
  namesSides : Bool := true
  hunks : List WrittenHunk
  noBlank : ' ' ∉ path
  noLineEnd : ∀ c ∈ path, isLineEnd c = false
  lines_noLineEnd : ∀ h ∈ hunks, ∀ l ∈ h.lines, ∀ c ∈ l.content, isLineEnd c = false

theorem oldSide_mem : "--- " ∈ headerStarts := by decide

theorem newSide_mem : "+++ " ∈ headerStarts := by decide

namespace ModifiedFile

variable (f : ModifiedFile)

theorem noLineEnd_side {side : List Char} (h : ∀ c ∈ side, isLineEnd c = false) :
    ∀ c ∈ side ++ f.path, isLineEnd c = false :=
  List.forall_mem_append.mpr ⟨h, f.noLineEnd⟩

def sideLines : List HeaderLine :=
  match f.namesSides with
  | true =>
    [⟨"--- ", "a/".toList ++ f.path, oldSide_mem, f.noLineEnd_side (noLineEnd_of_all (by decide))⟩,
      ⟨"+++ ", "b/".toList ++ f.path, newSide_mem, f.noLineEnd_side (noLineEnd_of_all (by decide))⟩]
  | false => []

def headers : List HeaderLine := f.details.map (·.toHeaderLine) ++ f.sideLines

def written : WrittenFile where
  name := "a/".toList ++ f.path ++ (pathMark ++ f.path)
  headers := f.headers.map HeaderLine.text
  hunks := f.hunks
  name_line := List.forall_mem_append.mpr ⟨f.noLineEnd_side (noLineEnd_of_all (by decide)),
    f.noLineEnd_side (noLineEnd_of_all (by decide))⟩
  headers_line := List.forall_mem_map.mpr fun l _ => l.noLineEnd_text
  headers_plain := List.forall_mem_map.mpr fun l _ => l.text_plain

def meant : FileDiff where
  path := String.ofList f.path
  hunks := f.hunks.map WrittenHunk.meant
  addedLines := f.written.countOf .added
  deletedLines := f.written.countOf .removed

theorem lastPath_firstLine : lastPath f.written.firstLine = f.path := by
  have hmark : ¬ pathMark <:+: f.path := fun h => f.noBlank (h.subset (by decide))
  have happend := lastPath_append (sectionMark ++ ("a/".toList ++ f.path)) f.path
  rw [← lastPath_of_notMarked hmark]
  simpa [WrittenFile.firstLine, written, List.append_assoc] using happend

theorem foldl_applyHeader_headers : (f.headers.map HeaderLine.text).foldl applyHeader
    { path := String.ofList f.path } = { path := String.ofList f.path } := by
  rw [headers, List.map_append, List.foldl_append, HeadedFile.foldl_applyHeader_details, sideLines]
  cases f.namesSides <;> simp [HeaderLine.text, applyHeader, after?]

theorem matchedBy_meant : f.written.MatchedBy f.meant where
  hunks := by
    simp only [meant, written, List.forall₂_map_right_iff, List.forall₂_same]
    exact fun h _ => h.numberedAdditions_meant
  added := rfl
  deleted := rfl

theorem strays_eq_nil (hheading : ∀ h ∈ f.hunks, Text.strays h.heading = []) :
    ∀ h ∈ f.written.hunks, h.strays = [] := fun h hh =>
  (WrittenHunk.strays_eq_heading (f.lines_noLineEnd h hh)).trans (hheading h hh)

theorem readSection_iff (hheading : ∀ h ∈ f.hunks, Text.strays h.heading = []) :
    readSection (f.written.firstLine, f.written.body) = .ok f.meant ↔
      ∀ h ∈ f.hunks, h.Numbered := by
  have hopened : f.hunks.map WrittenHunk.opened = f.hunks.map WrittenHunk.meant :=
    List.map_congr_left fun h hh =>
      (WrittenHunk.opened_eq_meant_iff (f.lines_noLineEnd h hh)).mpr (hheading h hh)
  have hmeant : f.meant = { f.written.headers.foldl applyHeader
      { path := String.ofList (lastPath f.written.firstLine) } with
        hunks := f.written.hunks.map WrittenHunk.opened
        addedLines := f.written.countOf .added
        deletedLines := f.written.countOf .removed } := by
    rw [lastPath_firstLine, written, foldl_applyHeader_headers, hopened]
    rfl
  rw [WrittenFile.readSection_eq_ok (f.strays_eq_nil hheading), ← hmeant]
  exact and_iff_left rfl

theorem strays_of_readSection
    (hread : readSection (f.written.firstLine, f.written.body) = .ok f.meant) :
    ∀ h ∈ f.hunks, Text.strays h.heading = [] := by
  have hopens := WrittenFile.header?_strays_of_isRead ⟨_, hread, f.matchedBy_meant⟩
  obtain ⟨d, hempty, -, -, heq⟩ := f.written.readSection_eq
  rw [heq, readLines_hunks hopens] at hread
  have hhunks : f.hunks.map WrittenHunk.meant = _ := congrArg FileDiff.hunks hread.2
  rw [hempty] at hhunks
  have hopened : f.hunks.map WrittenHunk.opened = f.hunks.map WrittenHunk.meant := hhunks.symm
  exact fun h hh => (WrittenHunk.opened_eq_meant_iff (f.lines_noLineEnd h hh)).mp
    (List.map_inj_left.mp hopened h hh)

end ModifiedFile

/-- The files are given back just when all numbers can be read and no line is read beside those that
are written. -/
theorem read_render_meant {files : List ModifiedFile} :
    read (render (files.map ModifiedFile.written)) = .ok (files.map ModifiedFile.meant) ↔
      ∀ f ∈ files, ∀ h ∈ f.hunks, h.Numbered ∧ Text.strays h.heading = [] := by
  have hsections (hfirst : ∀ f ∈ files.map ModifiedFile.written, ∀ s ∈ f.body,
      isFirst s = false) :
      read (render (files.map ModifiedFile.written)) = .ok (files.map ModifiedFile.meant) ↔
        ∀ f ∈ files, readSection (f.written.firstLine, f.written.body) = .ok f.meant := by
    rw [read_render_eq_ok hfirst, List.forall₂_map_left_iff, List.forall₂_map_right_iff,
      List.forall₂_same]
  constructor
  · intro hread
    have hmatched : List.Forall₂ WrittenFile.MatchedBy (files.map ModifiedFile.written)
        (files.map ModifiedFile.meant) := by
      rw [List.forall₂_map_left_iff, List.forall₂_map_right_iff, List.forall₂_same]
      exact fun f _ => f.matchedBy_meant
    have hall := (hsections (isFirst_of_faithful ⟨_, hread, hmatched⟩)).mp hread
    intro f hf h hh
    have hheading := f.strays_of_readSection (hall f hf)
    exact ⟨(f.readSection_iff hheading).mp (hall f hf) h hh, hheading h hh⟩
  · intro hall
    have hfirst : ∀ f ∈ files.map ModifiedFile.written, ∀ s ∈ f.body, isFirst s = false := by
      rw [List.forall_mem_map]
      exact fun f hf => isFirst_body_of_strays (f.strays_eq_nil fun h hh => (hall f hf h hh).2)
    refine (hsections hfirst).mpr fun f hf => ?_
    exact (f.readSection_iff fun h hh => (hall f hf h hh).2).mpr fun h hh => (hall f hf h hh).1

/-- Modified files are given back as they are meant just when the numbers of their hunks can be
read, if what stands behind the headers is not cut into lines. -/
theorem read_modified {files : List ModifiedFile}
    (hheading : ∀ f ∈ files, ∀ h ∈ f.hunks, strays h.heading = []) :
    read (render (files.map ModifiedFile.written)) = .ok (files.map ModifiedFile.meant) ↔
      ∀ f ∈ files, ∀ h ∈ f.hunks, h.Numbered := by
  rw [read_render_meant]
  exact forall₂_congr fun f hf => forall₂_congr fun h hh => and_iff_left (hheading f hf h hh)

theorem lines_noLineEnd_of_all {hunks : List WrittenHunk}
    (h : hunks.all fun h => h.lines.all fun l => l.content.all fun c => !isLineEnd c) :
    ∀ h ∈ hunks, ∀ l ∈ h.lines, ∀ c ∈ l.content, isLineEnd c = false := by
  simpa using h

def quotingFile : ModifiedFile where
  path := "notes.diff".toList
  hunks := [
    { oldStart := 3, newStart := 3, shortOld := true, heading := " quoted".toList,
      lines := [⟨.removed, "@@ -1 +1 @@".toList⟩, ⟨.added, "diff --git a/x b/x".toList⟩,
        ⟨.added, "++ b/y".toList⟩] },
    { oldStart := 0, newStart := 9,
      lines := [⟨.added, "@@ -1,2 +1,2 @@ f".toList⟩, ⟨.note, " No newline".toList⟩] }]
  noBlank := by decide
  noLineEnd := noLineEnd_of_all (by decide)
  lines_noLineEnd := lines_noLineEnd_of_all (by decide)

theorem read_modified_quoting :
    (∀ f ∈ [quotingFile], ∀ h ∈ f.hunks, strays h.heading = []) ∧
      read (render [quotingFile.written]) = .ok [quotingFile.meant] := by
  have hheading : ∀ f ∈ [quotingFile], ∀ h ∈ f.hunks, strays h.heading = [] := by decide
  have hsmall : ∀ h ∈ quotingFile.hunks, h.oldStart < 10 ∧ h.oldCount < 10 ∧ h.newStart < 10 ∧
      h.newCount < 10 := by decide
  have hreadable {n : Nat} (hn : n < 10) : IsReadable n := isReadable_of_lt (k := 1) hn (by decide)
  refine ⟨hheading, (read_modified hheading).mpr ?_⟩
  rw [List.forall_mem_singleton]
  intro h hh
  obtain ⟨hos, hoc, hns, hnc⟩ := hsmall h hh
  exact ⟨hreadable hos, hreadable hoc, hreadable hns, hreadable hnc⟩

def lineFile (start : Nat) (heading : List Char) : ModifiedFile where
  path := "a.txt".toList
  hunks := [{ oldStart := start, newStart := 1, heading, lines := [⟨.context, "x".toList⟩] }]
  noBlank := by decide
  noLineEnd := noLineEnd_of_all (by decide)
  lines_noLineEnd := lines_noLineEnd_of_all rfl

theorem of_read_lineFile {start : Nat} {heading : List Char}
    (h : read (render [(lineFile start heading).written]) = .ok [(lineFile start heading).meant]) :
    IsReadable start ∧ strays heading = [] := by
  have hmeant : ∀ f ∈ [lineFile start heading], ∀ h ∈ f.hunks,
      h.Numbered ∧ strays h.heading = [] := read_render_meant.mp h
  obtain ⟨hnumbered, hheading⟩ := hmeant _ (List.mem_singleton_self _) _ (List.mem_singleton_self _)
  exact ⟨hnumbered.1, hheading⟩

theorem not_read_lineFile :
    read (render [(lineFile (Nat.pow 10 digitLimit) []).written]) ≠
        .ok [(lineFile (Nat.pow 10 digitLimit) []).meant] ∧
      read (render [(lineFile 1 " f\x0cg".toList).written]) ≠
        .ok [(lineFile 1 " f\x0cg".toList).meant] := by
  refine ⟨fun hread => ?_, fun hread => ?_⟩
  · exact absurd (isReadable_pow_iff.mp (of_read_lineFile hread).1) (Nat.lt_irrefl _)
  · exact absurd (of_read_lineFile hread).2 (by decide)

end ChangeImpact.Diff
