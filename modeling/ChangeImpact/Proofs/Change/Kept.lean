import ChangeImpact.Proofs.Change.Joined
import ChangeImpact.Proofs.Change.Readable
import Mathlib.Algebra.Ring.Int.Defs
import Mathlib.Algebra.Ring.Nat

/-!
# No line of a diff is lost

A text is a front without files and one group of lines for each line that begins a file: that line,
the lines above the first hunk header, and each hunk header with the lines behind it. What is read
of the text has one file for each group, and its hunks hold the lines behind their headers, each
line once and in order; the counts of the files and of the change set are those of these lines.
`read_keeps` says this of every text that can be read.
-/

namespace ChangeImpact

namespace Diff

open Text

/-- The lines of a file: the one that begins it, those above its hunks, and its hunks, each with
its header and the lines behind it. -/
structure Group where
  first : List Char
  above : List (List Char)
  hunks : List (List Char × List (List Char))

def Group.lines (g : Group) : List (List Char) :=
  g.first :: (g.above ++ g.hunks.flatMap fun h => h.1 :: h.2)

/-- Only the first line begins a file, and of the others the headers are the hunk headers. -/
structure Group.Sound (g : Group) : Prop where
  isFirst_first : isFirst g.first = true
  isFirst_rest : ∀ s ∈ g.lines.tail, isFirst s = false
  above_plain : ∀ s ∈ g.above, header? s = none
  headers : ∀ h ∈ g.hunks, (header? h.1).isSome = true
  behind_plain : ∀ h ∈ g.hunks, ∀ s ∈ h.2, header? s = none

end Diff

def Hunk.Holds (h : Hunk) (header : List Char) (behind : List (List Char)) : Prop :=
  (∃ os oc ns nc, Diff.header? header = some ((os, oc), (ns, nc)) ∧
    Diff.number os = .ok h.oldStart ∧ Diff.count oc = .ok h.oldCount ∧
    Diff.number ns = .ok h.newStart ∧ Diff.count nc = .ok h.newCount) ∧
  h.lines = behind.map String.ofList

structure FileDiff.Holds (d : FileDiff) (g : Diff.Group) : Prop where
  hunks : List.Forall₂ (fun h written => h.Holds written.1 written.2) d.hunks g.hunks
  addedLines : d.addedLines = (d.hunks.map fun h => h.added.length).sum
  deletedLines : d.deletedLines = (d.hunks.map fun h => h.removed.length).sum

/-- The counts of the change set are those of the files with a path. -/
structure ChangeSet.Counts (c : ChangeSet) (ds : List FileDiff) : Prop where
  linesAdded : c.linesAdded = ((ds.filter (·.path != "")).map (·.addedLines)).sum
  linesDeleted : c.linesDeleted = ((ds.filter (·.path != "")).map (·.deletedLines)).sum
  files : c.filesAdded + c.filesModified + c.filesDeleted = (ds.filter (·.path != "")).length

namespace Diff

open Text

section Grouping

variable {ls : List (List Char)}

def cut : List (List Char) → List (List Char) × List (List Char × List (List Char))
  | [] => ([], [])
  | s :: r =>
    if (header? s).isSome then ([], (s, (cut r).1) :: (cut r).2) else (s :: (cut r).1, (cut r).2)

theorem cut_joined (ls : List (List Char)) :
    (cut ls).1 ++ (cut ls).2.flatMap (fun h => h.1 :: h.2) = ls := by
  induction ls with
  | nil => rfl
  | cons s r ih =>
    rw [cut]
    split
    · rw [List.nil_append, List.flatMap_cons, List.cons_append, ih]
    · rw [List.cons_append, ih]

theorem cut_spec (ls : List (List Char)) : (∀ s ∈ (cut ls).1, header? s = none) ∧
    (∀ h ∈ (cut ls).2, (header? h.1).isSome = true) ∧
    ∀ h ∈ (cut ls).2, ∀ s ∈ h.2, header? s = none := by
  induction ls with
  | nil => simp [cut]
  | cons s r ih =>
    obtain ⟨habove, hheaders, hbehind⟩ := ih
    rw [cut]
    split
    next hs =>
      exact ⟨List.forall_mem_nil _, List.forall_mem_cons.mpr ⟨hs, hheaders⟩,
        List.forall_mem_cons.mpr ⟨habove, hbehind⟩⟩
    next hs =>
      exact ⟨List.forall_mem_cons.mpr ⟨by simpa using hs, habove⟩, hheaders, hbehind⟩

def groupOf (s : List Char × List (List Char)) : Group := ⟨s.1, (cut s.2).1, (cut s.2).2⟩

theorem lines_groupOf (s : List Char × List (List Char)) : (groupOf s).lines = s.1 :: s.2 :=
  congrArg (s.1 :: ·) (cut_joined s.2)

theorem takeWhile_append_sections (ls : List (List Char)) :
    ls.takeWhile (fun l => !isFirst l) ++ (sections ls).flatMap (fun s => s.1 :: s.2) = ls := by
  induction ls with
  | nil => rfl
  | cons s r ih =>
    rw [List.takeWhile_cons, sections]
    change _ ++ List.flatMap _ (if isFirst s = true then _ else _) = _
    cases hs : isFirst s with
    | true => exact congrArg (s :: ·) ih
    | false => exact congrArg (s :: ·) ih

theorem sections_spec : ∀ s ∈ sections ls, isFirst s.1 = true ∧ ∀ l ∈ s.2, isFirst l = false := by
  induction ls with
  | nil => simp [sections]
  | cons line r ih =>
    rw [sections]
    split
    next hfirst =>
      refine List.forall_mem_cons.mpr ⟨⟨hfirst, fun l hl => ?_⟩, ih⟩
      simpa [isFirst] using List.mem_takeWhile_imp hl
    next => exact ih

theorem sound_groupOf {s : List Char × List (List Char)} (h : s ∈ sections ls) :
    (groupOf s).Sound where
  isFirst_first := (sections_spec s h).1
  isFirst_rest := by
    rw [lines_groupOf]
    exact (sections_spec s h).2
  above_plain := (cut_spec s.2).1
  headers := (cut_spec s.2).2.1
  behind_plain := (cut_spec s.2).2.2

end Grouping

section Reading

variable {d e : FileDiff} {g : Hunk}

theorem isSome_marked? (c : Char) (s : List Char) :
    (Hunk.marked? c (String.ofList s)).isSome = (s.head? == some c) := by
  rw [Hunk.marked?, String.toList_ofList]
  cases s with
  | nil => rfl
  | cons a r => by_cases ha : a = c <;> simp [ha]

theorem length_filterMap_marked? (c : Char) (ls : List (List Char)) :
    ((ls.map String.ofList).filterMap (Hunk.marked? c)).length = counted c ls := by
  rw [List.length_filterMap_eq_countP, List.countP_map, counted]
  exact List.countP_congr fun s _ => by simp [isSome_marked?]

theorem length_added {behind : List (List Char)} (h : g.lines = behind.map String.ofList) :
    g.added.length = counted '+' behind := by
  rw [Hunk.added, h, length_filterMap_marked?]

theorem length_removed {behind : List (List Char)} (h : g.lines = behind.map String.ofList) :
    g.removed.length = counted '-' behind := by
  rw [Hunk.removed, h, length_filterMap_marked?]

/-- The lines behind each hunk header go into its hunk, and the counts grow by those of the hunks.
The induction is on the hunks; what is open before the first of them is closed by it. -/
theorem holds_of_readLines {open_ : Option Hunk} {hunks : List (List Char × List (List Char))}
    (hheaders : ∀ h ∈ hunks, (header? h.1).isSome = true)
    (hbehind : ∀ h ∈ hunks, ∀ s ∈ h.2, header? s = none)
    (h : readLines d open_ (hunks.flatMap fun h => h.1 :: h.2) = .ok e) :
    ∃ hs, e.hunks = (close d open_).hunks ++ hs ∧
      List.Forall₂ (fun h written => h.Holds written.1 written.2) hs hunks ∧
      e.addedLines = d.addedLines + (hs.map fun h => h.added.length).sum ∧
      e.deletedLines = d.deletedLines + (hs.map fun h => h.removed.length).sum := by
  induction hunks generalizing d open_ with
  | nil =>
    obtain rfl := Except.ok.inj h
    refine ⟨[], (List.append_nil _).symm, .nil, ?_, ?_⟩
    · cases open_ <;> rfl
    · cases open_ <;> rfl
  | cons written hunks ih =>
    obtain ⟨header, behind⟩ := written
    obtain ⟨hheader, hheaders⟩ := List.forall_mem_cons.mp hheaders
    obtain ⟨hplain, hbehind⟩ := List.forall_mem_cons.mp hbehind
    obtain ⟨⟨⟨os, oc⟩, ns, nc⟩, hnumbers⟩ := Option.isSome_iff_exists.mp hheader
    rw [List.flatMap_cons, List.cons_append, readLines_header hnumbers] at h
    obtain ⟨a, b, c, k, ha, hb, hc, hk, h⟩ := h
    rw [readLines_append _ _ hplain] at h
    obtain ⟨hs, hhunks, hholds, hadded, hdeleted⟩ := ih hheaders hbehind h
    have hopened : (close d open_).addedLines = d.addedLines ∧
        (close d open_).deletedLines = d.deletedLines := by
      cases open_ <;> exact ⟨rfl, rfl⟩
    have hlines : (⟨a, b, c, k, [] ++ behind.map String.ofList⟩ : Hunk).lines =
        behind.map String.ofList := rfl
    refine ⟨⟨a, b, c, k, [] ++ behind.map String.ofList⟩ :: hs, ?_, ?_, ?_, ?_⟩
    · rw [hhunks, close, List.append_assoc]
      rfl
    · exact .cons ⟨⟨os, oc, ns, nc, hnumbers, ha, hb, hc, hk⟩, hlines⟩ hholds
    · rw [hadded, hopened.1, List.map_cons, List.sum_cons, length_added hlines, Nat.add_assoc]
    · rw [hdeleted, hopened.2, List.map_cons, List.sum_cons, length_removed hlines, Nat.add_assoc]

theorem holds_of_readSection {s : List Char × List (List Char)} (h : readSection s = .ok d) :
    d.Holds (groupOf s) := by
  obtain ⟨habove, hheaders, hbehind⟩ := cut_spec s.2
  rw [readSection, ← cut_joined s.2, readLines_headers _ habove] at h
  obtain ⟨hnone, hadded, hdeleted⟩ := foldl_applyHeader_counts
    { path := String.ofList (lastPath s.1) } (cut s.2).1
  obtain ⟨hs, hhunks, hholds, hadds, hdeletes⟩ := holds_of_readLines hheaders hbehind h
  obtain rfl : d.hunks = hs := by rw [hhunks, close, hnone, List.nil_append]
  exact ⟨hholds, by rw [hadds, hadded, Nat.zero_add], by rw [hdeletes, hdeleted, Nat.zero_add]⟩

end Reading

theorem foldr_add_natCast {α : Type} (l : List α) (f : α → Nat) :
    (l.map fun a => (f a : Int)).foldr (· + ·) 0 = (((l.map f).sum : Nat) : Int) := by
  induction l with
  | nil => rfl
  | cons a l ih =>
    rw [List.map_cons, List.foldr_cons, ih, List.map_cons, List.sum_cons, Int.natCast_add]

theorem filesWith_add (fs : List ChangedFile) :
    ChangeSet.filesAdded ⟨fs⟩ + ChangeSet.filesModified ⟨fs⟩ + ChangeSet.filesDeleted ⟨fs⟩ =
      fs.length := by
  induction fs with
  | nil => rfl
  | cons f fs ih =>
    have hone : ChangeSet.filesAdded ⟨[f]⟩ + ChangeSet.filesModified ⟨[f]⟩ +
        ChangeSet.filesDeleted ⟨[f]⟩ = 1 := by
      obtain ⟨path, additions, deletions, status⟩ := f
      cases status <;> rfl
    have hsum := ChangeSet.isSum_append [f] fs
    rw [List.singleton_append] at hsum
    rw [hsum.filesAdded, hsum.filesModified, hsum.filesDeleted, List.length_cons, ← ih]
    omega

theorem counts_changeSet (ds : List FileDiff) : (changeSet ds).Counts ds where
  linesAdded := by
    rw [changeSet, ChangeSet.linesAdded, List.map_map, ← foldr_add_natCast]
    rfl
  linesDeleted := by
    rw [changeSet, ChangeSet.linesDeleted, List.map_map, ← foldr_add_natCast]
    rfl
  files := by
    rw [changeSet, filesWith_add, List.length_map]

/-- Every line of a text stands in front of all files or is kept in the file that it belongs to. -/
theorem read_keeps (text : String) (h : ∀ group ∈ sections (lines text.toList),
      ∀ line ∈ group.2, ∀ n ∈ headerNumbers line, n.length ≤ digitLimit) :
    ∃ ds front groups, read text = .ok ds ∧ ds.length = (lines text.toList).countP isFirst ∧
      lines text.toList = front ++ groups.flatMap Group.lines ∧
      (∀ s ∈ front, isFirst s = false) ∧ (∀ g ∈ groups, g.Sound) ∧
      List.Forall₂ FileDiff.Holds ds groups ∧ (changeSet ds).Counts ds := by
  obtain ⟨ds, hread⟩ := exists_read_iff_headerNumbers.mpr h
  have hfiles := mapM_eq_ok.mp hread
  have hgroups : ((sections (lines text.toList)).map groupOf).flatMap Group.lines =
      (sections (lines text.toList)).flatMap fun s => s.1 :: s.2 := by
    rw [List.flatMap_map]
    exact List.flatMap_congr fun s _ => lines_groupOf s
  refine ⟨ds, (lines text.toList).takeWhile fun l => !isFirst l,
    (sections (lines text.toList)).map groupOf, hread, ?_, ?_, ?_, ?_, ?_, counts_changeSet ds⟩
  · rw [← hfiles.length_eq, length_sections]
  · rw [hgroups, takeWhile_append_sections]
  · exact fun s hs => by simpa using List.mem_takeWhile_imp hs
  · exact List.forall_mem_map.mpr fun s hs => sound_groupOf hs
  · rw [List.forall₂_map_right_iff]
    exact hfiles.flip.imp fun _ _ => holds_of_readSection

def scatteredDiff : String :=
  "front\ndiff --git a/a b/a\n@@ -1 +1 @@\n@@ -4,0 +5 @@ f\n+x\n y\ndiff --git a/b b/b\nindex\n"

theorem read_keeps_scattered :
    (∀ group ∈ sections (lines scatteredDiff.toList), ∀ line ∈ group.2,
      ∀ n ∈ headerNumbers line, n.length ≤ digitLimit) ∧
    ∃ ds front groups, read scatteredDiff = .ok ds ∧
      ds.length = (lines scatteredDiff.toList).countP isFirst ∧
      lines scatteredDiff.toList = front ++ groups.flatMap Group.lines ∧
      (∀ s ∈ front, isFirst s = false) ∧ (∀ g ∈ groups, g.Sound) ∧
      List.Forall₂ FileDiff.Holds ds groups ∧ (changeSet ds).Counts ds := by
  have hnumbers : ∀ group ∈ sections (lines scatteredDiff.toList), ∀ line ∈ group.2,
      ∀ n ∈ headerNumbers line, n.length ≤ digitLimit := by decide +kernel
  exact ⟨hnumbers, read_keeps scatteredDiff hnumbers⟩

end Diff

end ChangeImpact
