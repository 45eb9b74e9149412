import ChangeImpact.Proofs.Change.Headed
import ChangeImpact.Proofs.Change.Listed

/-!
# Two sources of a change set

The changed files are known from the unified diff and from the two lists of git. Both describe the
same changes, each by other evidence. They give one change set unless a file that is binary has
been added or deleted, of which the diff tells only that it is binary.
-/

namespace ChangeImpact.Diff

open Text
open Git (Letter ListedChange)

def changed (d : FileDiff) : ChangedFile :=
  { path := d.path, additions := d.addedLines, deletions := d.deletedLines, status := d.status }

theorem changeSet_of_paths {ds : List FileDiff} (h : ∀ d ∈ ds, d.path ≠ "") :
    changeSet ds = ⟨ds.map changed⟩ := by
  have hkeep : ds.filter (·.path != "") = ds :=
    List.filter_eq_self.mpr fun d hd => bne_iff_ne.mpr (h d hd)
  rw [changeSet, hkeep]
  rfl

theorem counts_of_readSection {f : WrittenFile} (hs : ∀ h ∈ f.hunks, h.strays = []) {d : FileDiff}
    (hread : readSection (f.firstLine, f.body) = .ok d) :
    d.addedLines = f.countOf .added ∧ d.deletedLines = f.countOf .removed := by
  obtain ⟨-, rfl⟩ := (WrittenFile.readSection_eq_ok hs).mp hread
  exact ⟨rfl, rfl⟩

def isPlainChar (c : Char) : Bool := c.isAlphanum || ['.', '_', '-', '/'].contains c

/-- A change of a file that keeps its path, whose lines hold no line ends. -/
structure PlainChange extends HeadedFile where
  plain : ∀ c ∈ path.text, isPlainChar c = true
  path_ne_nil : path.text ≠ []
  inPlace : ∀ source, fate ≠ .renamed source
  oneLine : ∀ h ∈ toHeadedFile.hunks, (∀ c ∈ h.heading, isLineEnd c = false) ∧
    ∀ l ∈ h.lines, ∀ c ∈ l.content, isLineEnd c = false

namespace PlainChange

variable (c : PlainChange)

def letter : Letter :=
  match c.fate with
  | .added _ => .added
  | .deleted _ => .deleted
  | _ => .modified

def counts : Option (Nat × Nat) :=
  match c.content with
  | .text _ => some (c.written.countOf .added, c.written.countOf .removed)
  | .binary => none

theorem notMem_path {b : Char} (h : isPlainChar b = false) : b ∉ c.path.text := fun hmem => by
  have hplain := c.plain b hmem
  rw [h] at hplain
  cases hplain

def listed : ListedChange where
  path := c.path.text
  letter := c.letter
  counts := c.counts
  noNul := c.notMem_path (by decide)

def shown : ChangedFile where
  path := String.ofList c.path.text
  additions := c.written.countOf .added
  deletions := c.written.countOf .removed
  status := c.readStatus

theorem keepsPath : c.KeepsPath := by
  have hblank : ' ' ∉ c.path.text := c.notMem_path (by decide)
  have hmark : ¬ pathMark <:+: c.path.text := fun hmark =>
    hblank (hmark.subset List.mem_cons_self)
  unfold HeadedFile.KeepsPath
  split
  exacts [hmark, hblank, trivial, hmark]

theorem strays_eq_nil : ∀ h ∈ c.written.hunks, h.strays = [] := fun h hh =>
  h.strays_eq_nil (c.oneLine h hh).1 (c.oneLine h hh).2

theorem changed_of_readSection {d : FileDiff}
    (h : readSection (c.written.firstLine, c.written.body) = .ok d) : changed d = c.shown := by
  have hface := c.face_of_readSection h
  obtain ⟨hadd, hrem⟩ := counts_of_readSection c.strays_eq_nil h
  rw [c.readPath_eq_iff.mpr c.keepsPath] at hface
  simp only [face, Prod.mk.injEq] at hface
  rw [changed, shown, hface.1, hface.2.1, hadd, hrem]

def IsNumbered : Prop := ∀ h ∈ c.hunks, h.Numbered

theorem exists_readSection_iff :
    (∃ d, readSection (c.written.firstLine, c.written.body) = .ok d) ↔ c.IsNumbered := by
  have hiff := exists_readLines_iff { path := String.ofList (lastPath c.written.firstLine) } none
    c.written.body
  rw [readSection, hiff, isCounted_body]
  refine forall₂_congr fun h hh => and_iff_left ?_
  rw [c.strays_eq_nil h hh]
  exact List.forall_mem_nil _

end PlainChange

def renderPlain (cs : List PlainChange) : String := render (cs.map fun c => c.written)

theorem read_renderPlain (cs : List PlainChange) {ds : List FileDiff} :
    read (renderPlain cs) = .ok ds ↔ List.Forall₂
      (fun c d => readSection (c.written.firstLine, c.written.body) = .ok d) cs ds := by
  have hfirst : ∀ f ∈ cs.map (fun c => c.written), ∀ s ∈ f.body, isFirst s = false := by
    rw [List.forall_mem_map]
    exact fun c _ => isFirst_body_of_strays c.strays_eq_nil
  exact (read_render_eq_ok hfirst).trans List.forall₂_map_left_iff

theorem map_changed_of_read {cs : List PlainChange} {ds : List FileDiff}
    (h : List.Forall₂
      (fun c d => readSection (c.written.firstLine, c.written.body) = .ok d) cs ds) :
    ds.map changed = cs.map (·.shown) := by
  induction h with
  | nil => rfl
  | @cons c d _ _ hread _ ih =>
    rw [List.map_cons, List.map_cons, c.changed_of_readSection hread, ih]

theorem exists_read_iff {cs : List PlainChange} :
    (∃ ds, read (renderPlain cs) = .ok ds) ↔ ∀ c ∈ cs, c.IsNumbered := by
  simp only [read_renderPlain, ← mapM_eq_ok, exists_mapM_iff, PlainChange.exists_readSection_iff]

theorem changeSet_of_read {cs : List PlainChange} {ds : List FileDiff}
    (h : read (renderPlain cs) = .ok ds) : changeSet ds = ⟨cs.map (·.shown)⟩ := by
  have hmap := map_changed_of_read ((read_renderPlain cs).mp h)
  rw [changeSet_of_paths, hmap]
  intro d hd hempty
  have hmem : changed d ∈ cs.map (·.shown) := hmap ▸ List.mem_map_of_mem hd
  obtain ⟨c, -, hc⟩ := List.mem_map.mp hmem
  have hpath : String.ofList c.path.text = String.ofList [] := (congrArg (·.path) hc).trans hempty
  exact c.path_ne_nil (String.ofList_injective hpath)

def Agree (git : Git) (base head : LooseText) (cs : List PlainChange) : Prop :=
  ∃ ds set, read (renderPlain cs) = .ok ds ∧ Gives (git.changedFiles base head) (.ok set) ∧
    changeSet ds = set

theorem agree_iff_shown {git : Git} {base head : LooseText} {cs : List PlainChange}
    (hnd : (cs.map (·.path.text)).Nodup) (hlists : git.Lists base head (cs.map (·.listed))) :
    Agree git base head cs ↔
      ∀ c ∈ cs, c.IsNumbered ∧ c.listed.IsReadable ∧ c.shown = c.listed.file := by
  have hpaths : ((cs.map (·.listed)).map (·.path)).Nodup := by
    rw [List.map_map]
    exact hnd
  have hfiles : (cs.map (·.shown)) = (cs.map (·.listed)).map (·.file) ↔
      ∀ c ∈ cs, c.shown = c.listed.file := by
    rw [List.map_map]
    exact List.map_inj_left
  simp only [Agree, Git.changedFiles_gives_ok hlists, Git.readChanges_eq_ok hpaths,
    List.forall_mem_map]
  constructor
  · intro h
    obtain ⟨ds, _, hread, ⟨hcounts, rfl⟩, hset⟩ := h
    have hsame := hfiles.mp (ChangeSet.mk.inj ((changeSet_of_read hread).symm.trans hset))
    have hnumbered := exists_read_iff.mp ⟨ds, hread⟩
    exact fun c hc => ⟨hnumbered c hc, hcounts c hc, hsame c hc⟩
  · intro hall
    obtain ⟨ds, hread⟩ := exists_read_iff.mpr fun c hc => (hall c hc).1
    refine ⟨ds, _, hread, ⟨fun c hc => (hall c hc).2.1, rfl⟩, ?_⟩
    rw [changeSet_of_read hread, hfiles.mpr fun c hc => (hall c hc).2.2]

namespace PlainChange

variable (c : PlainChange)

theorem shown_eq_file_iff : c.shown = c.listed.file ↔
    (c.content = .binary → c.letter = .modified) := by
  obtain ⟨⟨path, fate, content, above, below⟩, -, -, inPlace, -⟩ := c
  cases fate with
  | renamed source => exact absurd rfl (inPlace source)
  | _ =>
    cases content <;>
      simp [shown, listed, ListedChange.file, counts, letter, Letter.status,
        HeadedFile.readStatus, HeadedFile.status, WrittenFile.countOf, HeadedFile.written,
        HeadedFile.hunks]

end PlainChange

/-- Diff and lists agree just when all numbers can be read and no binary file has been added or
deleted. -/
theorem agree_iff {git : Git} {base head : LooseText} {cs : List PlainChange}
    (hnd : (cs.map (·.path.text)).Nodup) (hlists : git.Lists base head (cs.map (·.listed))) :
    Agree git base head cs ↔ ∀ c ∈ cs, c.IsNumbered ∧ c.listed.IsReadable ∧
      (c.content = .binary → c.letter = .modified) := by
  rw [agree_iff_shown hnd hlists]
  simp only [PlainChange.shown_eq_file_iff]

def listing (cs : List PlainChange) : Git :=
  Git.answering (Git.numstat (cs.map (·.listed))) (Git.nameStatus (cs.map (·.listed)))

def editedScript : PlainChange where
  path := ⟨"src/a_b-1.js".toList, List.all_eq_true.mp (by decide)⟩
  fate := .modified
  content := .text
    [{ oldStart := 1, newStart := 1, lines := [⟨.removed, "old".toList⟩, ⟨.added, "new".toList⟩] }]
  plain := List.all_eq_true.mp (by decide)
  path_ne_nil := by decide
  inPlace := fun _ => Fate.noConfusion
  oneLine := List.forall_mem_singleton.mpr ⟨List.forall_mem_nil _, List.forall_mem_cons.mpr
    ⟨noLineEnd_of_all (by decide), List.forall_mem_singleton.mpr (noLineEnd_of_all (by decide))⟩⟩

def picture (fate : Fate) (h : ∀ source, fate ≠ .renamed source) : PlainChange where
  path := ⟨"logo.png".toList, List.all_eq_true.mp (by decide)⟩
  fate := fate
  content := .binary
  plain := List.all_eq_true.mp (by decide)
  path_ne_nil := by decide
  inPlace := h
  oneLine := List.forall_mem_nil _

def editedBoth : List PlainChange := [editedScript, picture .modified fun _ => Fate.noConfusion]

theorem agree_editedBoth : (editedBoth.map (·.path.text)).Nodup ∧
    (listing editedBoth).Lists "main" "HEAD" (editedBoth.map (·.listed)) ∧
      Agree (listing editedBoth) "main" "HEAD" editedBoth := by
  have hnd : (editedBoth.map (·.path.text)).Nodup := by decide
  have hlists : (listing editedBoth).Lists "main" "HEAD" (editedBoth.map (·.listed)) :=
    Git.answering_lists "main" "HEAD" _
  have hone : IsReadable 1 := isReadable_of_lt (k := 1) (by decide) (by decide)
  refine ⟨hnd, hlists, (agree_iff hnd hlists).mpr (List.forall_mem_cons.mpr ⟨⟨?_, ?_, ?_⟩,
    List.forall_mem_singleton.mpr ⟨List.forall_mem_nil _, trivial, fun _ => rfl⟩⟩)⟩
  · exact List.forall_mem_singleton.mpr ⟨hone, hone, hone, hone⟩
  · exact ⟨hone, hone⟩
  · exact fun _ => rfl

def addedPicture : List PlainChange := [picture (.added 100644) fun _ => Fate.noConfusion]

theorem not_agree_addedPicture :
    (listing addedPicture).Lists "main" "HEAD" (addedPicture.map (·.listed)) ∧
      ¬ Agree (listing addedPicture) "main" "HEAD" addedPicture := by
  have hlists : (listing addedPicture).Lists "main" "HEAD" (addedPicture.map (·.listed)) :=
    Git.answering_lists "main" "HEAD" _
  refine ⟨hlists, fun hagree => ?_⟩
  have hsame := ((agree_iff_shown (by decide) hlists).mp hagree _ (List.mem_singleton_self _)).2.2
  exact absurd (congrArg (·.status) hsame) (by decide)

end ChangeImpact.Diff
