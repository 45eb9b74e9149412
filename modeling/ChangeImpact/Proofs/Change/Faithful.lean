import ChangeImpact.Proofs.Change.Reading
import ChangeImpact.Proofs.Change.Written
import ChangeImpact.Proofs.Data.Results

/-!
# What is read of the bodies of a written diff

A stray line, into which a line of a hunk or its header is cut, is read as a line of its own. It
may begin a file or a hunk, count as added or removed, or move the numbers of the lines behind it.
A written diff is read as it is meant just when no stray line does so.
-/

namespace ChangeImpact.Diff

open Text

namespace WrittenHunk

/-- The lines that are read of a hunk beside those that are written. -/
def strays (h : WrittenHunk) : List (List Char) :=
  Text.strays h.heading ++ h.lines.flatMap fun l => Text.strays l.content

def Numbered (h : WrittenHunk) : Prop :=
  IsReadable h.oldStart ∧ IsReadable h.oldCount ∧ IsReadable h.newStart ∧ IsReadable h.newCount

def opened (h : WrittenHunk) : Hunk :=
  ⟨h.oldStart, h.oldCount, h.newStart, h.newCount, h.body.map String.ofList⟩

theorem mem_body {h : WrittenHunk} {s : List Char} :
    s ∈ h.body ↔ s ∈ h.strays ∨ ∃ l ∈ h.lines, s = l.mark.char :: first l.content := by
  simp only [body, strays, WrittenLine.read, List.mem_append, List.mem_flatMap, List.mem_cons]
  constructor
  · intro hmem
    rcases hmem with hs | ⟨l, hl, rfl | hs⟩
    exacts [.inl (.inl hs), .inr ⟨l, hl, rfl⟩, .inl (.inr ⟨l, hl, hs⟩)]
  · intro hmem
    rcases hmem with (hs | ⟨l, hl, hs⟩) | ⟨l, hl, rfl⟩
    exacts [.inl hs, .inr ⟨l, hl, .inr hs⟩, .inr ⟨l, hl, .inl rfl⟩]

theorem counted_body (h : WrittenHunk) (m : Mark) :
    counted m.char h.body = h.lines.countP (·.mark == m) + counted m.char h.strays := by
  have hmark : ∀ m' : Mark, m'.char = m.char ↔ m' = m := by
    cases m <;> intro m' <;> cases m' <;> decide
  simp only [body, strays, counted_append]
  induction h.lines with
  | nil => simp
  | cons l ls ih =>
    simp only [List.flatMap_cons, counted_append, List.countP_cons, WrittenLine.read, counted_cons,
      List.head?_cons, Option.some.injEq, hmark, beq_iff_eq] at ih ⊢
    omega

end WrittenHunk

theorem header?_mark (m : Mark) (s : List Char) : header? (m.char :: s) = none := by
  cases m <;> rfl

theorem header?_of_mem_body {h : WrittenHunk} (hs : ∀ s ∈ h.strays, header? s = none) :
    ∀ s ∈ h.body, header? s = none := by
  intro s hmem
  rcases WrittenHunk.mem_body.mp hmem with hstray | ⟨l, -, rfl⟩
  · exact hs s hstray
  · exact header?_mark _ _

theorem readLines_hunks {hunks : List WrittenHunk}
    (hs : ∀ h ∈ hunks, ∀ s ∈ h.strays, header? s = none) {d e : FileDiff} {open_ : Option Hunk} :
    readLines d open_ (hunks.flatMap WrittenHunk.read) = .ok e ↔
      (∀ h ∈ hunks, h.Numbered) ∧ e =
        { d with
          hunks := d.hunks ++ open_.toList ++ hunks.map WrittenHunk.opened
          addedLines := d.addedLines + counted '+' (hunks.flatMap WrittenHunk.body)
          deletedLines := d.deletedLines + counted '-' (hunks.flatMap WrittenHunk.body) } := by
  -- The header of a hunk closes the one that is open, so the induction is for every `open_`.
  induction hunks generalizing d open_ with
  | nil =>
    simp only [List.flatMap_nil, readLines, Except.ok.injEq, List.not_mem_nil, false_imp_iff,
      implies_true, true_and, counted_nil, List.map_nil]
    cases open_ <;> simp [close, eq_comm]
  | cons h hunks ih =>
    obtain ⟨hh, hhunks⟩ := List.forall_mem_cons.mp hs
    rw [List.flatMap_cons, WrittenHunk.read, List.cons_append,
      readLines_header (header?_numbersText h _)]
    simp only [number_digits, count_countText, readLines_append _ _ (header?_of_mem_body hh),
      ih hhunks, List.forall_mem_cons, WrittenHunk.Numbered]
    constructor
    · intro hread
      obtain ⟨_, _, _, _, ⟨h1, rfl⟩, ⟨h2, rfl⟩, ⟨h3, rfl⟩, ⟨h4, rfl⟩, hrest, rfl⟩ := hread
      refine ⟨⟨⟨h1, h2, h3, h4⟩, hrest⟩, ?_⟩
      cases open_ <;> simp [close, WrittenHunk.opened, Nat.add_assoc]
    · intro hread
      obtain ⟨⟨⟨h1, h2, h3, h4⟩, hrest⟩, rfl⟩ := hread
      refine ⟨_, _, _, _, ⟨h1, rfl⟩, ⟨h2, rfl⟩, ⟨h3, rfl⟩, ⟨h4, rfl⟩, hrest, ?_⟩
      cases open_ <;> simp [close, WrittenHunk.opened, Nat.add_assoc]

namespace WrittenHunk

/-- No line end inside the lines of a hunk and behind its header does harm. -/
structure Undisturbed (h : WrittenHunk) : Prop where
  numbered : h.Numbered
  opens_none : ∀ s ∈ h.strays, sectionMark.isPrefixOf s = false ∧ header? s = none
  unmarked : ∀ s ∈ h.strays, s.head? ≠ some '+' ∧ s.head? ≠ some '-'
  heading_kept : (∃ l ∈ h.lines, l.mark = .added) →
    ∀ s ∈ Text.strays h.heading, s.head? = some '\\'
  lines_kept : h.lines.Pairwise fun l l' =>
    l'.mark = .added → ∀ s ∈ Text.strays l.content, s.head? = some '\\'

theorem numberedAdditions_opened {h : WrittenHunk}
    (hs : ∀ s ∈ h.strays, s.head? ≠ some '+' ∧ s.head? ≠ some '-') :
    h.opened.numberedAdditions.map (·.1) = h.numbers ↔
      ((∃ l ∈ h.lines, l.mark = .added) → ∀ s ∈ Text.strays h.heading, s.head? = some '\\') ∧
        h.lines.Pairwise fun l l' =>
          l'.mark = .added → ∀ s ∈ Text.strays l.content, s.head? = some '\\' := by
  simp only [strays, List.forall_mem_append, List.forall_mem_flatMap] at hs
  have hread : h.opened.numberedAdditions.map (·.1) = readNumbers h.newStart h.body := rfl
  have hwritten : h.numbers = writtenNumbers h.newStart h.lines := rfl
  rw [hread, hwritten, body, readNumbers_strays hs.1, readNumbers_eq_iff hs.2]
  simp only [shift_eq_zero]
  refine and_congr_left fun _ => ⟨?_, fun himp => ?_⟩
  · intro hkept hadded
    obtain ⟨l, hl, hadd⟩ := hadded
    rcases hkept with hz | hno
    exacts [hz, absurd hadd (hno l hl)]
  · by_cases hadd : ∃ l ∈ h.lines, l.mark = .added
    · exact .inl (himp hadd)
    · exact .inr fun l hl hm => hadd ⟨l, hl, hm⟩

end WrittenHunk

namespace WrittenFile

structure MatchedBy (f : WrittenFile) (d : FileDiff) : Prop where
  hunks : List.Forall₂ (fun h g => g.numberedAdditions.map (·.1) = h.numbers) f.hunks d.hunks
  added : d.addedLines = f.countOf .added
  deleted : d.deletedLines = f.countOf .removed

def IsRead (f : WrittenFile) : Prop :=
  ∃ d, readSection (f.firstLine, f.body) = .ok d ∧ f.MatchedBy d

theorem counted_flatMap_body (hunks : List WrittenHunk) (m : Mark) :
    counted m.char (hunks.flatMap WrittenHunk.body) =
      (hunks.flatMap (·.lines)).countP (·.mark == m) +
        counted m.char (hunks.flatMap WrittenHunk.strays) := by
  induction hunks with
  | nil => rfl
  | cons h hunks ih =>
    simp only [List.flatMap_cons, counted_append, h.counted_body, ih, List.countP_append]
    omega

/-- Where no stray line is read, the section has the hunks as they are opened and counts the lines
that are written. -/
theorem readSection_eq_ok {f : WrittenFile} (hs : ∀ h ∈ f.hunks, h.strays = []) {d : FileDiff} :
    readSection (f.firstLine, f.body) = .ok d ↔ (∀ h ∈ f.hunks, h.Numbered) ∧ d =
      { f.headers.foldl applyHeader { path := String.ofList (lastPath f.firstLine) } with
        hunks := f.hunks.map WrittenHunk.opened
        addedLines := f.countOf .added
        deletedLines := f.countOf .removed } := by
  have hnone : f.hunks.flatMap WrittenHunk.strays = [] := List.flatMap_eq_nil_iff.mpr hs
  have hopens : ∀ h ∈ f.hunks, ∀ s ∈ h.strays, header? s = none := fun h hh s hmem => by
    rw [hs h hh] at hmem
    cases hmem
  have hadd : counted '+' (f.hunks.flatMap WrittenHunk.body) = f.countOf .added := by
    have hcount := counted_flatMap_body f.hunks .added
    rwa [hnone, counted_nil] at hcount
  have hrem : counted '-' (f.hunks.flatMap WrittenHunk.body) = f.countOf .removed := by
    have hcount := counted_flatMap_body f.hunks .removed
    rwa [hnone, counted_nil] at hcount
  obtain ⟨hempty, hzero, hzero'⟩ :=
    foldl_applyHeader_counts { path := String.ofList (lastPath f.firstLine) } f.headers
  rw [readSection, body, readLines_headers _ (fun s hs => (f.headers_plain s hs).2),
    readLines_hunks hopens]
  simp only [hadd, hrem, hempty, hzero, hzero', Option.toList_none, List.nil_append, Nat.zero_add]

theorem readSection_eq (f : WrittenFile) : ∃ d : FileDiff, d.hunks = [] ∧ d.addedLines = 0 ∧
    d.deletedLines = 0 ∧ readSection (f.firstLine, f.body) =
      readLines d none (f.hunks.flatMap WrittenHunk.read) := by
  have hcounts :=
    foldl_applyHeader_counts { path := String.ofList (lastPath f.firstLine) } f.headers
  exact ⟨_, hcounts.1, hcounts.2.1, hcounts.2.2,
    readLines_headers _ (fun s hs => (f.headers_plain s hs).2) _⟩

theorem header?_strays_of_isRead {f : WrittenFile} (hf : f.IsRead) :
    ∀ h ∈ f.hunks, ∀ s ∈ h.strays, header? s = none := by
  obtain ⟨d, hread, hmatch⟩ := hf
  obtain ⟨d₀, hempty, -, -, heq⟩ := f.readSection_eq
  rw [heq] at hread
  have hlength := length_hunks_of_readLines hread
  have hcount : ∀ hunks : List WrittenHunk,
      (hunks.flatMap WrittenHunk.read).countP (fun s => (header? s).isSome) = hunks.length +
        (hunks.flatMap WrittenHunk.body).countP fun s => (header? s).isSome := fun hunks => by
    induction hunks with
    | nil => rfl
    | cons h hunks ih =>
      simp only [List.flatMap_cons, List.countP_append, WrittenHunk.read, List.countP_cons, ih,
        header?_numbersText, Option.isSome_some, if_true, List.length_cons]
      omega
  -- As many hunks are read as are written, so a stray line opens none.
  rw [hempty, ← hmatch.hunks.length_eq, hcount] at hlength
  have hzero : (f.hunks.flatMap WrittenHunk.body).countP (fun s => (header? s).isSome) = 0 := by
    simpa using hlength
  rw [List.countP_eq_zero] at hzero
  intro h hh s hs
  simpa using hzero s (List.mem_flatMap.mpr ⟨h, hh, WrittenHunk.mem_body.mpr (.inl hs)⟩)

theorem matchedBy_iff (f : WrittenFile) {d : FileDiff} (hd : d.hunks = []) (ha : d.addedLines = 0)
    (hr : d.deletedLines = 0) :
    f.MatchedBy
        { d with
          hunks := d.hunks ++ (none : Option Hunk).toList ++ f.hunks.map WrittenHunk.opened
          addedLines := d.addedLines + counted '+' (f.hunks.flatMap WrittenHunk.body)
          deletedLines := d.deletedLines + counted '-' (f.hunks.flatMap WrittenHunk.body) } ↔
      ∀ h ∈ f.hunks, (∀ s ∈ h.strays, s.head? ≠ some '+' ∧ s.head? ≠ some '-') ∧
        h.opened.numberedAdditions.map (·.1) = h.numbers := by
  have hadd : counted '+' (f.hunks.flatMap WrittenHunk.body) = f.countOf .added +
      counted '+' (f.hunks.flatMap WrittenHunk.strays) := counted_flatMap_body f.hunks .added
  have hrem : counted '-' (f.hunks.flatMap WrittenHunk.body) = f.countOf .removed +
      counted '-' (f.hunks.flatMap WrittenHunk.strays) := counted_flatMap_body f.hunks .removed
  have hzero : ∀ n k : Nat, 0 + (n + k) = n ↔ k = 0 := by omega
  have hparts : ∀ d' : FileDiff, f.MatchedBy d' ↔
      List.Forall₂ (fun h g => g.numberedAdditions.map (·.1) = h.numbers) f.hunks d'.hunks ∧
        d'.addedLines = f.countOf .added ∧ d'.deletedLines = f.countOf .removed :=
    fun d' => ⟨fun hm => ⟨hm.1, hm.2, hm.3⟩, fun hm => ⟨hm.1, hm.2.1, hm.2.2⟩⟩
  rw [hparts]
  simp only [hd, ha, hr, hadd, hrem, hzero, counted_eq_zero, Option.toList_none, List.append_nil,
    List.nil_append, List.forall₂_map_right_iff, List.forall₂_same, List.forall_mem_flatMap]
  constructor
  · intro hmatch h hh
    obtain ⟨hnumbers, hplus, hminus⟩ := hmatch
    exact ⟨fun s hs => ⟨hplus h hh s hs, hminus h hh s hs⟩, hnumbers h hh⟩
  · intro hall
    exact ⟨fun h hh => (hall h hh).2, fun h hh s hs => ((hall h hh).1 s hs).1,
      fun h hh s hs => ((hall h hh).1 s hs).2⟩

theorem isRead_iff (f : WrittenFile) : f.IsRead ↔
    ∀ h ∈ f.hunks, h.Numbered ∧ (∀ s ∈ h.strays, header? s = none) ∧
      (∀ s ∈ h.strays, s.head? ≠ some '+' ∧ s.head? ≠ some '-') ∧
        h.opened.numberedAdditions.map (·.1) = h.numbers := by
  obtain ⟨d₀, hd, ha, hr, heq⟩ := f.readSection_eq
  constructor
  · intro hf
    have hopens := header?_strays_of_isRead hf
    obtain ⟨d, hread, hmatch⟩ := hf
    rw [heq, readLines_hunks hopens] at hread
    obtain ⟨hnumbered, rfl⟩ := hread
    have hcounts := (f.matchedBy_iff hd ha hr).mp hmatch
    exact fun h hh => ⟨hnumbered h hh, hopens h hh, hcounts h hh⟩
  · intro hall
    refine ⟨_, ?_, (f.matchedBy_iff hd ha hr).mpr fun h hh => (hall h hh).2.2⟩
    rw [heq, readLines_hunks fun h hh => (hall h hh).2.1]
    exact ⟨fun h hh => (hall h hh).1, rfl⟩

end WrittenFile

theorem isFirst_firstLine (f : WrittenFile) : isFirst f.firstLine = true := by
  rw [isFirst, List.isPrefixOf_iff_prefix]
  exact List.prefix_append _ _

theorem sections_files {files : List WrittenFile}
    (h : ∀ f ∈ files, ∀ s ∈ f.body, isFirst s = false) :
    sections (files.flatMap fun f => f.firstLine :: f.body) =
      files.map fun f => (f.firstLine, f.body) := by
  induction files with
  | nil => rfl
  | cons f files ih =>
    obtain ⟨hf, hfiles⟩ := List.forall_mem_cons.mp h
    have hbehind : (files.flatMap fun f => f.firstLine :: f.body).takeWhile
        (fun l => !sectionMark.isPrefixOf l) = [] := by
      cases files with
      | nil => rfl
      | cons g files =>
        have := isFirst_firstLine g
        rw [isFirst] at this
        simp [this]
    have hbody : ∀ s ∈ f.body, (!sectionMark.isPrefixOf s) = true := fun s hs => by
      have := hf s hs
      rw [isFirst] at this
      simp [this]
    have hfirst : sectionMark.isPrefixOf f.firstLine = true := isFirst_firstLine f
    rw [List.flatMap_cons, List.cons_append, sections, if_pos hfirst,
      List.takeWhile_append_of_pos hbody, hbehind, List.append_nil, sections_append hf,
      ih hfiles, List.map_cons]

theorem read_render_eq_ok {files : List WrittenFile}
    (h : ∀ f ∈ files, ∀ s ∈ f.body, isFirst s = false) {ds : List FileDiff} :
    read (render files) = .ok ds ↔
      List.Forall₂ (fun f d => readSection (f.firstLine, f.body) = .ok d) files ds := by
  rw [read, lines_render, sections_files h, mapM_eq_ok, List.forall₂_map_left_iff]

theorem isFirst_body {f : WrittenFile} : (∀ s ∈ f.body, isFirst s = false) ↔
    ∀ h ∈ f.hunks, ∀ s ∈ h.strays, isFirst s = false := by
  have hmark : ∀ (m : Mark) (s : List Char), isFirst (m.char :: s) = false := by
    intro m s
    cases m <;> rfl
  have hnumbers : ∀ (h : WrittenHunk) (s : List Char), isFirst (h.numbersText ++ s) = false :=
    fun _ _ => rfl
  simp only [WrittenFile.body, List.forall_mem_append, List.forall_mem_flatMap, WrittenHunk.read,
    List.forall_mem_cons, hnumbers, true_and]
  constructor
  · intro hboth h hh s hs
    obtain ⟨-, hall⟩ := hboth
    exact hall h hh s (WrittenHunk.mem_body.mpr (.inl hs))
  · refine fun hall => ⟨fun s hs => (f.headers_plain s hs).1, fun h hh s hs => ?_⟩
    rcases WrittenHunk.mem_body.mp hs with hs | ⟨l, -, rfl⟩
    exacts [hall h hh s hs, hmark _ _]

theorem isFirst_body_of_strays {f : WrittenFile} (hs : ∀ h ∈ f.hunks, h.strays = []) :
    ∀ s ∈ f.body, isFirst s = false := by
  refine isFirst_body.mpr fun h hh => ?_
  rw [hs h hh]
  exact List.forall_mem_nil _

/-- The diff is read, and file by file, hunk by hunk as it is written. -/
def Faithful (files : List WrittenFile) : Prop :=
  ∃ ds, read (render files) = .ok ds ∧ List.Forall₂ WrittenFile.MatchedBy files ds

theorem forall₂_isRead {files : List WrittenFile} :
    (∃ ds, List.Forall₂ (fun f d => readSection (f.firstLine, f.body) = .ok d) files ds ∧
      List.Forall₂ WrittenFile.MatchedBy files ds) ↔ ∀ f ∈ files, f.IsRead := by
  induction files with
  | nil => simp
  | cons f files ih =>
    rw [List.forall_mem_cons, ← ih]
    constructor
    · intro h
      obtain ⟨_, hread, hmatch⟩ := h
      obtain ⟨d, ds, hd, hds, rfl⟩ := List.forall₂_cons_left_iff.mp hread
      obtain ⟨hm, hms⟩ := List.forall₂_cons.mp hmatch
      exact ⟨⟨d, hd, hm⟩, ds, hds, hms⟩
    · intro h
      obtain ⟨⟨d, hd, hm⟩, ds, hds, hms⟩ := h
      exact ⟨d :: ds, .cons hd hds, .cons hm hms⟩

theorem isFirst_of_faithful {files : List WrittenFile} (h : Faithful files) :
    ∀ f ∈ files, ∀ s ∈ f.body, isFirst s = false := by
  obtain ⟨ds, hread, hmatch⟩ := h
  rw [read, lines_render, mapM_eq_ok] at hread
  have hlength := hread.length_eq.trans hmatch.length_eq.symm
  have hcount : ∀ files : List WrittenFile,
      (files.flatMap fun f => f.firstLine :: f.body).countP isFirst =
        files.length + (files.flatMap WrittenFile.body).countP isFirst := fun files => by
    induction files with
    | nil => rfl
    | cons f files ih =>
      simp only [List.flatMap_cons, List.countP_append, List.countP_cons, ih, isFirst_firstLine,
        if_true, List.length_cons]
      omega
  rw [length_sections, hcount, Nat.add_eq_left, List.countP_eq_zero] at hlength
  intro f hf s hs
  simpa using hlength s (List.mem_flatMap.mpr ⟨f, hf, hs⟩)

theorem faithful_iff_isRead {files : List WrittenFile} : Faithful files ↔
    (∀ f ∈ files, ∀ s ∈ f.body, isFirst s = false) ∧ ∀ f ∈ files, f.IsRead := by
  constructor
  · intro h
    have hfirst := isFirst_of_faithful h
    obtain ⟨ds, hread, hmatch⟩ := h
    exact ⟨hfirst, forall₂_isRead.mp ⟨ds, (read_render_eq_ok hfirst).mp hread, hmatch⟩⟩
  · intro hboth
    obtain ⟨hfirst, hall⟩ := hboth
    obtain ⟨ds, hread, hmatch⟩ := forall₂_isRead.mpr hall
    exact ⟨ds, (read_render_eq_ok hfirst).mpr hread, hmatch⟩

/-- A written diff is read with its hunks, its counts and the numbers of its added lines just when
no line end inside its lines does harm. -/
theorem faithful_iff_undisturbed (files : List WrittenFile) :
    Faithful files ↔ ∀ f ∈ files, ∀ h ∈ f.hunks, h.Undisturbed := by
  rw [faithful_iff_isRead]
  simp only [isFirst_body, WrittenFile.isRead_iff]
  constructor
  · intro hboth f hf h hh
    obtain ⟨hfirst, hall⟩ := hboth
    obtain ⟨hnumbered, hopens, hunmarked, hnumbers⟩ := hall f hf h hh
    obtain ⟨hheading, hlines⟩ := (WrittenHunk.numberedAdditions_opened hunmarked).mp hnumbers
    exact ⟨hnumbered, fun s hs => ⟨hfirst f hf h hh s hs, hopens s hs⟩, hunmarked, hheading,
      hlines⟩
  · intro hall
    refine ⟨fun f hf h hh s hs => ((hall f hf h hh).opens_none s hs).1, fun f hf h hh => ?_⟩
    obtain ⟨hnumbered, hopens, hunmarked, hheading, hlines⟩ := hall f hf h hh
    exact ⟨hnumbered, fun s hs => (hopens s hs).2, hunmarked,
      (WrittenHunk.numberedAdditions_opened hunmarked).mpr ⟨hheading, hlines⟩⟩

def formFeedFile : WrittenFile :=
  .ofPath "notes.txt".toList (noLineEnd_of_all (by decide))
    [{ oldStart := 0, newStart := 1,
       lines := [⟨.added, "one\x0c+two".toList⟩, ⟨.added, "three".toList⟩] }]

theorem not_faithful_formFeed : (∀ h ∈ formFeedFile.hunks, ∀ l ∈ h.lines, '\n' ∉ l.content) ∧
    ¬ Faithful [formFeedFile] := by
  refine ⟨by decide, fun h => ?_⟩
  have hread := (faithful_iff_isRead.mp h).2 _ (List.mem_singleton_self _)
  have hunmarked := ((WrittenFile.isRead_iff _).mp hread _ (List.mem_singleton_self _)).2.2.1
  exact (hunmarked "+two".toList (by decide)).1 rfl

theorem WrittenHunk.strays_eq_heading {h : WrittenHunk}
    (hlines : ∀ l ∈ h.lines, ∀ c ∈ l.content, isLineEnd c = false) :
    h.strays = Text.strays h.heading := by
  have hnone : ∀ l ∈ h.lines, Text.strays l.content = [] := fun l hl =>
    strays_of_noLineEnd (hlines l hl)
  rw [WrittenHunk.strays, List.flatMap_eq_nil_iff.mpr hnone, List.append_nil]

theorem WrittenHunk.strays_eq_nil (h : WrittenHunk)
    (hheading : ∀ c ∈ h.heading, isLineEnd c = false)
    (hlines : ∀ l ∈ h.lines, ∀ c ∈ l.content, isLineEnd c = false) : h.strays = [] :=
  (strays_eq_heading hlines).trans (strays_of_noLineEnd hheading)

end ChangeImpact.Diff
