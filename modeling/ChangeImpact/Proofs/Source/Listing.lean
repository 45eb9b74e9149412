import ChangeImpact.Graph.Build
import ChangeImpact.Proofs.Imports.Candidates
import ChangeImpact.Proofs.Source.Tree
import Mathlib.Data.List.Perm.Basic
import Mathlib.Data.String.Basic

/-!
# What a listing holds

The files of a tree are given by recursion on it: a folder holds those of its entries, each below
the name of its entry, and none if it cannot be opened. A worklist gives the same files, folder by
folder. So the files of a repository are, in order, those that lie below no ignored folder and that
can be reached.
-/

namespace ChangeImpact

open ChangeImpact.Path ChangeImpact.Tree

namespace Source

mutual

def filesBelow (shut : List String → Bool) (enter : Nat → String → Bool) (depth : Nat) :
    Tree → List (List String)
  | .file _ => [[]]
  | .folder es => if shut [] then [] else filesAmong shut enter depth es

def filesAmong (shut : List String → Bool) (enter : Nat → String → Bool) (depth : Nat) :
    List (String × Tree) → List (List String)
  | [] => []
  | (name, t) :: r =>
    (if t.isFile || enter depth name then
      (filesBelow (fun names => shut (name :: names)) enter (depth + 1) t).map (name :: ·)
    else []) ++ filesAmong shut enter depth r

end

theorem filesAmong_eq_flatMap (shut : List String → Bool) (enter : Nat → String → Bool)
    (depth : Nat) (es : List (String × Tree)) : filesAmong shut enter depth es = es.flatMap fun e =>
      if e.2.isFile || enter depth e.1 then
        (filesBelow (fun names => shut (e.1 :: names)) enter (depth + 1) e.2).map (e.1 :: ·)
      else [] := by
  induction es with
  | nil => rfl
  | cons e r ih => rw [filesAmong, ih, List.flatMap_cons]

section Worklist

variable {shut : List String → Bool} {enter : Nat → String → Bool}

def Unscanned.ahead (shut : List String → Bool) (enter : Nat → String → Bool) (f : Unscanned) :
    List (List String) :=
  (filesBelow (fun names => shut (f.parts ++ names)) enter f.depth (.folder f.entries)).map
    (f.parts ++ ·)

theorem ahead_of_shut {f : Unscanned} (h : shut f.parts = true) : f.ahead shut enter = [] := by
  rw [Unscanned.ahead, filesBelow, List.append_nil, if_pos h, List.map_nil]

theorem ahead_of_open {f : Unscanned} (h : shut f.parts = false) : f.ahead shut enter =
    (filesAmong (fun names => shut (f.parts ++ names)) enter f.depth f.entries).map
      (f.parts ++ ·) := by
  rw [Unscanned.ahead, filesBelow, List.append_nil, h, if_neg Bool.false_ne_true]

/-- A scan hands every file of a folder on, to what is found or to what is put off. -/
theorem filesIn_append_putOff (f : Unscanned) (listed : List (String × Tree)) :
    (f.filesIn listed ++ (f.putOff enter listed).flatMap (·.ahead shut enter)).Perm
      ((filesAmong (fun names => shut (f.parts ++ names)) enter f.depth listed).map
        (f.parts ++ ·)) := by
  induction listed with
  | nil => exact .nil
  | cons e r ih =>
    obtain ⟨name, t⟩ := e
    rw [filesAmong, List.map_append]
    cases t with
    | file content =>
      have hfile : ((Tree.file content).isFile || enter f.depth name) = true := rfl
      rw [if_pos hfile, filesBelow]
      exact ih.cons (f.parts ++ [name])
    | folder es =>
      rw [Unscanned.filesIn_folder, Unscanned.putOff_folder]
      by_cases henter : enter f.depth name = true
      · -- A folder that is entered is put off, and what it holds lies ahead.
        have hahead : (Unscanned.mk (f.depth + 1) (f.parts ++ [name]) es).ahead shut enter =
            ((filesBelow (fun names => shut (f.parts ++ name :: names)) enter (f.depth + 1)
              (.folder es)).map (name :: ·)).map (f.parts ++ ·) := by
          simp only [Unscanned.ahead, List.append_assoc, List.singleton_append, List.map_map,
            Function.comp_def]
        rw [if_pos henter, if_pos (by rw [henter, Bool.or_true]), List.flatMap_cons, hahead]
        exact (List.perm_append_comm_assoc _ _ _).trans (ih.append_left _)
      · have hpassed : ¬ ((Tree.folder es).isFile || enter f.depth name) = true := henter
        rw [if_neg henter, if_neg hpassed]
        exact ih

theorem listFiles_perm (shut : List String → Bool) (enter : Nat → String → Bool)
    (work : List Unscanned) :
    (listFiles shut enter work).Perm (work.flatMap (·.ahead shut enter)) := by
  induction work using listFiles.induct shut enter with
  | case1 => rw [listFiles, List.flatMap_nil]
  | case2 f rest hshut ih =>
    rw [listFiles, if_pos hshut, List.flatMap_cons, ahead_of_shut hshut]
    exact ih
  | case3 f rest hopen ih =>
    rw [listFiles, if_neg hopen, List.flatMap_cons, ahead_of_open (Bool.eq_false_iff.mpr hopen)]
    refine (ih.append_left _).trans ?_
    rw [List.flatMap_append, ← List.append_assoc]
    refine List.Perm.append_right _ (List.Perm.trans ?_ (filesIn_append_putOff f f.entries))
    exact ((List.reverse_perm _).flatMap_right _).append_left _

theorem listFiles_start_perm (shut : List String → Bool) (enter : Nat → String → Bool)
    (es : List (String × Tree)) :
    (listFiles shut enter [⟨0, [], es⟩]).Perm (filesBelow shut enter 0 (.folder es)) := by
  have hperm := listFiles_perm shut enter [⟨0, [], es⟩]
  simpa only [List.flatMap_singleton, Unscanned.ahead, List.nil_append, List.map_id'] using hperm

theorem listFiles_empty (shut : List String → Bool) (enter : Nat → String → Bool) :
    listFiles shut enter [⟨0, [], []⟩] = [] := by
  rw [listFiles]
  split <;> simp [listFiles]

theorem entries_of_not_folder {t : Option Tree} (h : ∀ entries, t ≠ some (.folder entries)) :
    (t.getD .empty).entries = [] := by
  rcases t with _ | ⟨_ | entries⟩
  · rfl
  · rfl
  · exact absurd rfl (h entries)

end Worklist

section Members

variable {shut : List String → Bool} {enter : Nat → String → Bool} {depth : Nat} {t : Tree}
  {es : List (String × Tree)}

def entersAll (enter : Nat → String → Bool) : Nat → List String → Bool
  | _, [] => true
  | depth, name :: r => enter depth name && entersAll enter (depth + 1) r

def opensTo (shut : List String → Bool) : List String → Bool
  | [] => true
  | name :: r => !shut [] && opensTo (fun names => shut (name :: names)) r

theorem entersAll_const (enter : String → Bool) (depth : Nat) (names : List String) :
    entersAll (fun _ => enter) depth names = names.all enter := by
  induction names generalizing depth with
  | nil => rfl
  | cons name r ih => rw [entersAll, ih, List.all_cons]

theorem opensTo_concat {folders : List String} {name : String} :
    opensTo shut (folders ++ [name]) = true ↔ ∀ above, above <+: folders → shut above = false := by
  induction folders generalizing shut with
  | nil => simp [opensTo]
  | cons folder r ih =>
    rw [List.cons_append, opensTo, Bool.and_eq_true, Bool.not_eq_true', ih]
    constructor
    · intro h above habove
      rcases above with - | ⟨first, rest⟩
      · exact h.1
      · obtain ⟨rfl, hrest⟩ := List.cons_prefix_cons.mp habove
        exact h.2 rest hrest
    · intro h
      exact ⟨h [] List.nil_prefix, fun above habove =>
        h _ (List.cons_prefix_cons.mpr ⟨rfl, habove⟩)⟩

theorem opensTo_of_all_open (parts : List String) : opensTo (fun _ => false) parts = true := by
  induction parts with
  | nil => rfl
  | cons name r ih => rw [opensTo, ih]; rfl

/-- On the way to a file, the first folder is entered and the folders below it are; a file that
comes first is the whole way. -/
theorem entersAll_dropLast_cons {name : String} {r : List String}
    (hfile : (t.find r).any isFile) :
    entersAll enter depth (name :: r).dropLast =
      ((t.isFile || enter depth name) && entersAll enter (depth + 1) r.dropLast) := by
  cases r with
  | nil =>
    have ht : t.isFile = true := by simpa [find] using hfile
    rw [ht]
    rfl
  | cons q s =>
    cases t with
    | file content => simp [find] at hfile
    | folder es =>
      rw [List.dropLast_cons_cons, entersAll]
      rfl

theorem cons_mem_filesAmong {name : String} {r : List String} :
    name :: r ∈ filesAmong shut enter depth es ↔ ∃ t, (name, t) ∈ es ∧
      (t.isFile || enter depth name) = true ∧
        r ∈ filesBelow (fun names => shut (name :: names)) enter (depth + 1) t := by
  rw [filesAmong_eq_flatMap, List.mem_flatMap]
  constructor
  · intro h
    obtain ⟨⟨first, t⟩, hmem, h⟩ := h
    split at h
    next hentered =>
      obtain ⟨below, hbelow, heq⟩ := List.mem_map.mp h
      obtain ⟨rfl, rfl⟩ := List.cons.inj heq
      exact ⟨t, hmem, hentered, hbelow⟩
    next => cases h
  · intro h
    obtain ⟨t, hmem, hentered, hbelow⟩ := h
    exact ⟨(name, t), hmem, by simpa [hentered] using hbelow⟩

theorem nil_notMem_filesAmong : [] ∉ filesAmong shut enter depth es := by
  rw [filesAmong_eq_flatMap, List.mem_flatMap]
  intro h
  obtain ⟨e, -, h⟩ := h
  split at h
  · simp at h
  · cases h

theorem mem_filesBelow (h : t.WellFormed) {parts : List String} :
    parts ∈ filesBelow shut enter depth t ↔ (t.find parts).any isFile ∧
      entersAll enter depth parts.dropLast ∧ opensTo shut parts := by
  induction parts generalizing shut depth t with
  | nil =>
    cases t with
    | file content => simp [filesBelow, find, isFile, isFolder, entersAll, opensTo]
    | folder es =>
      have hnot : [] ∉ filesBelow shut enter depth (.folder es) := by
        rw [filesBelow]
        split
        · exact List.not_mem_nil
        · exact nil_notMem_filesAmong
      simp [hnot, find, isFile, isFolder]
  | cons p r ih =>
    cases h with
    | file content => simp [filesBelow, find]
    | @folder es names nodup below =>
      rw [filesBelow, opensTo]
      cases hshut : shut [] with
      | true => simp
      | false =>
        rw [if_neg Bool.false_ne_true, cons_mem_filesAmong, Bool.not_false, Bool.true_and]
        constructor
        · intro hlisted
          obtain ⟨t, hmem, hentered, hbelow⟩ := hlisted
          obtain ⟨hfile, hall, hopen⟩ := (ih (below _ hmem)).mp hbelow
          rw [find, lookup_of_mem nodup hmem, Option.bind_some, entersAll_dropLast_cons hfile, hall,
            Bool.and_true]
          exact ⟨hfile, hentered, hopen⟩
        · intro hlisted
          obtain ⟨hfile, hall, hopen⟩ := hlisted
          rw [find, Option.any_bind, Option.any_eq_true] at hfile
          obtain ⟨t, hl, hfile⟩ := hfile
          rw [entersAll_dropLast_cons hfile, Bool.and_eq_true] at hall
          have hmem := mem_of_lookup hl
          exact ⟨t, hmem, hall.1, (ih (below _ hmem)).mpr ⟨hfile, hall.2, hopen⟩⟩

end Members

section Sorted

theorem mem_sorted {paths : List String} {path : String} :
    path ∈ sorted paths ↔ path ∈ paths := by
  rw [sorted, List.mem_mergeSort]

theorem pairwise_sorted (paths : List String) : (sorted paths).Pairwise (· ≤ ·) := by
  have htrans : ∀ a b c : String, decide (a ≤ b) → decide (b ≤ c) → decide (a ≤ c) := by
    simpa using fun a b c => le_trans (α := String) (a := a) (b := b) (c := c)
  have htotal : ∀ a b : String, decide (a ≤ b) || decide (b ≤ a) := by
    simpa using le_total (α := String)
  exact (List.pairwise_mergeSort htrans htotal paths).imp of_decide_eq_true

theorem sorted_congr {paths paths' : List String} (h : paths.Perm paths') :
    sorted paths = sorted paths' := by
  have hperm : (sorted paths).Perm (sorted paths') :=
    (List.mergeSort_perm _ _).trans (h.trans (List.mergeSort_perm _ _).symm)
  exact hperm.eq_of_pairwise (fun a b _ _ => le_antisymm) (pairwise_sorted _) (pairwise_sorted _)

end Sorted

section Collected

variable {shut : List String → Bool} {ignored : List String} {entries : List (String × Tree)}

def keeps (ignored : List String) (_depth : Nat) (name : String) : Bool := !ignored.contains name

theorem collect_folder (shut : List String → Bool) (ignored : List String)
    (entries : List (String × Tree)) : collect shut ignored (.folder entries) =
      sorted ((filesBelow shut (keeps ignored) 0 (.folder entries)).map ofParts) :=
  sorted_congr ((listFiles_start_perm shut (keeps ignored) entries).map ofParts)

theorem mem_collect (h : (Tree.folder entries).WellFormed) {path : String} :
    path ∈ collect shut ignored (.folder entries) ↔ ∃ parts, ofParts parts = path ∧
      ((Tree.folder entries).find parts).any isFile ∧
        (parts.dropLast.all fun name => !ignored.contains name) ∧ opensTo shut parts := by
  rw [collect_folder, mem_sorted, List.mem_map]
  refine exists_congr fun parts => ?_
  rw [mem_filesBelow h, and_comm, ← entersAll_const _ 0]
  rfl

end Collected

end Source

namespace Build

open Source

variable {settings : IndexSettings} {disk : Tree} {root : Path}

theorem pairwise_filesOf : (filesOf settings disk root).Pairwise (· ≤ ·) :=
  pairwise_sorted _

theorem isFileAt_child {parts : List String} (h : ∀ p ∈ parts, IsName p) :
    disk.isFileAt (root.child (ofParts parts)) =
      (disk.at? root).any fun t => (t.find parts).any isFile := by
  rw [isFileAt, at?_child (fun p hp => (h p hp).1) (fun hup => (h _ hup).2.1 rfl), Option.any_bind]
  rfl

theorem isKept_ofParts {ignored parts : List String} (h : ∀ p ∈ parts, IsName p) :
    Imports.Resolver.isKept ignored (ofParts parts) =
      parts.dropLast.all fun name => !ignored.contains name := by
  rw [Imports.Resolver.isKept, Imports.Resolver.folders_ofParts fun p hp => (h p hp).1]

theorem filesOf_of_folder {entries : List (String × Tree)}
    (h : disk.at? root = some (.folder entries)) : filesOf settings disk root =
      collect (shutBelow disk root) settings.ignored (.folder entries) := by
  rw [filesOf, h, Option.getD_some]

theorem filesOf_of_not_folder (h : ∀ entries, disk.at? root ≠ some (.folder entries)) :
    filesOf settings disk root = [] := by
  rw [filesOf, collect, entries_of_not_folder h, listFiles_empty, List.map_nil, sorted,
    List.mergeSort_nil]

theorem mem_filesOf (h : disk.WellFormed) {path : String} :
    path ∈ filesOf settings disk root ↔ ∃ parts, ofParts parts = path ∧ parts ≠ [] ∧
      (∀ p ∈ parts, IsName p) ∧ disk.isFileAt (root.child path) ∧
      Imports.Resolver.isKept settings.ignored path ∧ opensTo (shutBelow disk root) parts := by
  by_cases hfolder : ∃ entries, disk.at? root = some (.folder entries)
  · obtain ⟨entries, ht⟩ := hfolder
    have hwf := (h.at? ht).1
    rw [filesOf_of_folder ht, mem_collect hwf]
    refine exists_congr fun parts => and_congr_right fun heq => ?_
    obtain rfl := heq
    constructor
    · intro hlisted
      obtain ⟨hfile, hkept, hopen⟩ := hlisted
      obtain ⟨u, hu, -⟩ := (Option.any_eq_true _ _).mp hfile
      have hnames := hwf.isName_of_find hu
      refine ⟨?_, hnames, ?_, ?_, hopen⟩
      · rintro rfl
        simp [find, isFile, isFolder] at hfile
      · rwa [isFileAt_child hnames, ht, Option.any_some]
      · rwa [isKept_ofParts hnames]
    · intro hlisted
      obtain ⟨-, hnames, hfile, hkept, hopen⟩ := hlisted
      rw [isFileAt_child hnames, ht, Option.any_some] at hfile
      rw [isKept_ofParts hnames] at hkept
      exact ⟨hfile, hkept, hopen⟩
  · rw [filesOf_of_not_folder (fun entries ht => hfolder ⟨entries, ht⟩)]
    simp only [List.not_mem_nil, false_iff, not_exists, not_and]
    intro parts heq hne hnames hfile
    obtain rfl := heq
    rw [isFileAt_child hnames, Option.any_eq_true] at hfile
    obtain ⟨t, ht, hfile⟩ := hfile
    obtain ⟨name, rest, rfl⟩ := List.exists_cons_of_ne_nil hne
    cases t with
    | file content => cases hfile
    | folder entries => exact absurd ⟨entries, ht⟩ hfolder

end Build

end ChangeImpact
