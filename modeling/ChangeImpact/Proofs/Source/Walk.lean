import ChangeImpact.Proofs.Source.Listing
import Mathlib.Data.List.Nodup
import Mathlib.Logic.Relation

/-!
# Walking a tree

A walk finds the files of a tree in rounds: each round scans the folder that was put off last, which
may list its entries in any order; the files among them are found, and the folders that are entered
are put off. A folder that cannot be opened is dropped. A round makes the work smaller, loses no file
that can be reached and finds none twice. So every walk ends, and what it has found is, once sorted,
what is collected.
-/

namespace ChangeImpact

namespace Path

theorem ofParts_inj {parts parts' : List String} (h : ∀ p ∈ parts, IsPart p)
    (h' : ∀ p ∈ parts', IsPart p) (heq : ofParts parts = ofParts parts') : parts = parts' := by
  have hread := congrArg ofString heq
  rw [ofString_ofParts h, ofString_ofParts h'] at hread
  exact congrArg Path.parts hread

end Path

namespace Source

open ChangeImpact.Path ChangeImpact.Tree

variable {shut : List String → Bool} {enter : Nat → String → Bool}

section Distinct

variable {depth : Nat} {t : Tree}

theorem isName_of_mem_filesBelow (h : t.WellFormed) {parts : List String}
    (hparts : parts ∈ filesBelow shut enter depth t) : ∀ p ∈ parts, IsName p := by
  obtain ⟨hfile, -⟩ := (mem_filesBelow h).mp hparts
  obtain ⟨u, hu, -⟩ := (Option.any_eq_true _ _).mp hfile
  exact h.isName_of_find hu

/-- Entries of different names share no file, since its first name tells which entry it is below. -/
theorem nodup_filesBelow (h : t.WellFormed) : (filesBelow shut enter depth t).Nodup := by
  induction h generalizing shut depth with
  | file content => exact List.nodup_singleton _
  | @folder es names nodup below ih =>
    rw [filesBelow]
    split
    · exact List.nodup_nil
    rw [filesAmong_eq_flatMap, List.nodup_flatMap]
    constructor
    · intro e he
      split
      · exact (ih e he).map (List.cons_injective)
      · exact List.nodup_nil
    · refine (List.pairwise_map.mp nodup).imp fun {a b} hne parts ha hb => ?_
      have hfirst : ∀ e : String × Tree, parts ∈ (if e.2.isFile || enter depth e.1 then
          (filesBelow (fun names => shut (e.1 :: names)) enter (depth + 1) e.2).map (e.1 :: ·)
            else []) → parts.head? = some e.1 := by
        intro e he
        split at he
        · obtain ⟨below, -, rfl⟩ := List.mem_map.mp he
          rfl
        · cases he
      exact hne (Option.some.inj ((hfirst a ha).symm.trans (hfirst b hb)))

theorem nodup_ofParts_filesBelow (h : t.WellFormed) {above : List String}
    (habove : ∀ p ∈ above, IsPart p) :
    ((filesBelow shut enter depth t).map fun parts => ofParts (above ++ parts)).Nodup := by
  have hpart : ∀ parts ∈ filesBelow shut enter depth t, ∀ p ∈ above ++ parts, IsPart p :=
    fun parts hparts => List.forall_mem_append.mpr
      ⟨habove, fun p hp => (isName_of_mem_filesBelow h hparts p hp).1⟩
  refine (nodup_filesBelow h).map_on fun parts hparts parts' hparts' heq => ?_
  exact List.append_cancel_left (ofParts_inj (hpart parts hparts) (hpart parts' hparts') heq)

theorem pairwise_lt_sorted {paths : List String} (h : paths.Nodup) :
    (sorted paths).Pairwise (· < ·) := by
  have hnodup : (sorted paths).Nodup := (List.mergeSort_perm _ _).nodup_iff.mpr h
  exact ((pairwise_sorted paths).and hnodup).imp fun hboth => lt_of_le_of_ne hboth.1 hboth.2

end Distinct

section Rounds

/-- The folders that are put off, the last one last, and the files that have been found. -/
structure Walk where
  pending : List Unscanned
  found : List (List String)

def Walk.start (entries : List (String × Tree)) : Walk := ⟨[⟨0, [], entries⟩], []⟩

/-- One round of a walk. The folder that is scanned lists its entries in some order. -/
inductive Scans (shut : List String → Bool) (enter : Nat → String → Bool) : Walk → Walk → Prop where
  | round {pending : List Unscanned} {found : List (List String)} {f : Unscanned}
      {listed : List (String × Tree)} (opens : shut f.parts = false)
      (order : listed.Perm f.entries) :
      Scans shut enter ⟨pending ++ [f], found⟩
        ⟨pending ++ f.putOff enter listed, found ++ f.filesIn listed⟩
  | skip {pending : List Unscanned} {found : List (List String)} {f : Unscanned}
      (closed : shut f.parts = true) :
      Scans shut enter ⟨pending ++ [f], found⟩ ⟨pending, found⟩

namespace Walk

def total (shut : List String → Bool) (enter : Nat → String → Bool) (w : Walk) :
    List (List String) :=
  w.found ++ w.pending.flatMap (·.ahead shut enter)

def weight (w : Walk) : Nat := workSize w.pending

end Walk

variable {w w' : Walk}

/-- A round changes nothing about which files are found in the end. -/
theorem Scans.total_perm (h : Scans shut enter w w') :
    (w'.total shut enter).Perm (w.total shut enter) := by
  cases h with
  | @round pending found f listed opens order =>
    have hscan : (f.filesIn listed ++ (f.putOff enter listed).flatMap (·.ahead shut enter)).Perm
        (f.ahead shut enter) := by
      refine (filesIn_append_putOff f listed).trans ?_
      rw [ahead_of_open opens, filesAmong_eq_flatMap, filesAmong_eq_flatMap]
      exact (order.flatMap_right _).map _
    simp only [Walk.total, List.flatMap_append, List.flatMap_singleton, List.append_assoc]
    refine List.Perm.append_left found ?_
    exact (List.perm_append_comm_assoc _ _ _).trans (hscan.append_left _)
  | skip closed =>
    simp only [Walk.total, List.flatMap_append, List.flatMap_singleton, ahead_of_shut closed,
      List.append_nil]
    exact .refl _

theorem total_perm_of_walk (h : Relation.ReflTransGen (Scans shut enter) w w') :
    (w'.total shut enter).Perm (w.total shut enter) := by
  induction h with
  | refl => exact .refl _
  | tail _ hround ih => exact hround.total_perm.trans ih

theorem sizes_congr {es es' : List (String × Tree)} (h : es.Perm es') :
    Tree.sizes es = Tree.sizes es' := by
  induction h with
  | nil => rfl
  | cons e _ ih => rw [Tree.sizes, Tree.sizes, ih]
  | swap a b r =>
    rw [Tree.sizes, Tree.sizes, Tree.sizes, Tree.sizes]
    omega
  | trans _ _ ih ih' => exact ih.trans ih'

theorem Scans.weight_lt (h : Scans shut enter w w') : w'.weight < w.weight := by
  cases h with
  | @round pending found f listed opens order =>
    have hput : workSize (f.putOff enter listed) ≤ Tree.sizes listed :=
      workSize_putOff_le enter f listed
    have hscanned : workSize [f] = 1 + Tree.sizes f.entries := rfl
    have hsame := sizes_congr order
    simp only [Walk.weight, workSize_append, hscanned]
    omega
  | @skip pending found f closed =>
    have hscanned : workSize [f] = 1 + Tree.sizes f.entries := rfl
    simp only [Walk.weight, workSize_append, hscanned]
    omega

theorem wellFounded_scans (shut : List String → Bool) (enter : Nat → String → Bool) :
    WellFounded fun later earlier => Scans shut enter earlier later :=
  Subrelation.wf (fun h => h.weight_lt) (measure Walk.weight).wf

theorem exists_scans_of_pending (h : w.pending ≠ []) : ∃ later, Scans shut enter w later := by
  obtain ⟨pending, found⟩ := w
  obtain ⟨front, f, rfl⟩ : ∃ front f, pending = front ++ [f] := by
    rcases List.eq_nil_or_concat pending with rfl | ⟨front, f, rfl⟩
    · exact absurd rfl h
    · exact ⟨front, f, List.concat_eq_append⟩
  cases hshut : shut f.parts with
  | false => exact ⟨_, .round hshut (.refl f.entries)⟩
  | true => exact ⟨_, .skip hshut⟩

end Rounds

section Collected

variable {ignored : List String} {entries : List (String × Tree)}

/-- Strictly increasing paths of just the files that lie below no ignored folder and below none that
cannot be opened. -/
structure IsListing (shut : List String → Bool) (ignored : List String) (root : Tree)
    (paths : List String) : Prop where
  increasing : paths.Pairwise (· < ·)
  mem_iff : ∀ path, path ∈ paths ↔ ∃ folders name, ofParts (folders ++ [name]) = path ∧
    (root.find (folders ++ [name])).any isFile = true ∧ (∀ folder ∈ folders, folder ∉ ignored) ∧
      ∀ above, above <+: folders → shut above = false

theorem isListing_collect (h : (Tree.folder entries).WellFormed) :
    IsListing shut ignored (.folder entries) (collect shut ignored (.folder entries)) where
  increasing := by
    rw [collect_folder]
    exact pairwise_lt_sorted (nodup_ofParts_filesBelow h (List.forall_mem_nil _))
  mem_iff path := by
    rw [mem_collect h]
    constructor
    · intro hpath
      obtain ⟨parts, rfl, hfile, hkept, hopen⟩ := hpath
      rcases List.eq_nil_or_concat parts with rfl | ⟨folders, name, rfl⟩
      · simp [Tree.find, Tree.isFile, Tree.isFolder] at hfile
      · rw [List.concat_eq_append] at *
        exact ⟨folders, name, rfl, hfile, by simpa using hkept, opensTo_concat.mp hopen⟩
    · intro hpath
      obtain ⟨folders, name, rfl, hfile, hkept, hopen⟩ := hpath
      exact ⟨folders ++ [name], rfl, hfile, by simpa using hkept, opensTo_concat.mpr hopen⟩

/-- Every walk of a tree ends, and however the folders list their entries, it has then found the
files that are collected: strictly increasing, just those below no ignored folder and below none that
cannot be opened. -/
theorem collect_walk (shut : List String → Bool) (ignored : List String)
    (h : (Tree.folder entries).WellFormed) :
    (WellFounded fun later earlier => Scans shut (keeps ignored) earlier later) ∧
    (∀ w, Relation.ReflTransGen (Scans shut (keeps ignored)) (.start entries) w →
      (∃ later, Scans shut (keeps ignored) w later) ∨
        w.pending = [] ∧ sorted (w.found.map ofParts) = collect shut ignored (.folder entries)) ∧
    IsListing shut ignored (.folder entries) (collect shut ignored (.folder entries)) := by
  refine ⟨wellFounded_scans _ _, fun w hwalk => ?_, isListing_collect h⟩
  by_cases hpending : w.pending = []
  · refine .inr ⟨hpending, ?_⟩
    have hperm := total_perm_of_walk hwalk
    simp only [Walk.total, hpending, Walk.start, List.flatMap_nil, List.append_nil,
      List.flatMap_singleton, List.nil_append, Unscanned.ahead, List.map_id'] at hperm
    rw [collect_folder]
    exact sorted_congr (hperm.map ofParts)
  · exact .inl (exists_scans_of_pending hpending)

def sourcesAndOutput : List (String × Tree) :=
  [("src", .folder [("b.py", .file []), ("out", .folder [("b.pyc", .file [])]), ("a.py", .file [])]),
    ("keys", .folder [("c.py", .file [])]), ("out", .file [])]

theorem collect_walk_sourcesAndOutput : (Tree.folder sourcesAndOutput).WellFormed ∧
    (∀ w, Relation.ReflTransGen (Scans (· == ["keys"]) (keeps ["out"])) (.start sourcesAndOutput) w →
      (∃ later, Scans (· == ["keys"]) (keeps ["out"]) w later) ∨
        w.pending = [] ∧ sorted (w.found.map ofParts) = ["out", "src/a.py", "src/b.py"]) := by
  have hwf : (Tree.folder sourcesAndOutput).WellFormed := by
    refine .folder (by decide) (by decide) ?_
    simp only [sourcesAndOutput, List.forall_mem_cons]
    refine ⟨.folder (by decide) (by decide) ?_, .folder (by decide) (by decide) ?_, .file [],
      List.forall_mem_nil _⟩
    · simp only [List.forall_mem_cons]
      refine ⟨.file [], .folder (by decide) (by decide) ?_, .file [], List.forall_mem_nil _⟩
      simpa using Tree.WellFormed.file []
    · simpa using Tree.WellFormed.file []
  have hcollected : collect (· == ["keys"]) ["out"] (.folder sourcesAndOutput) =
      ["out", "src/a.py", "src/b.py"] := by
    have hbelow : ((filesBelow (· == ["keys"]) (keeps ["out"]) 0 (.folder sourcesAndOutput)).map
        ofParts).Perm ["out", "src/a.py", "src/b.py"] := by decide
    rw [collect_folder, sorted_congr hbelow, sorted, List.mergeSort_of_pairwise (by decide)]
  refine ⟨hwf, ?_⟩
  rw [← hcollected]
  exact (collect_walk (· == ["keys"]) ["out"] hwf).2.1

def nest (t : Tree) : List String → Tree
  | [] => t
  | name :: r => .folder [(name, nest t r)]

theorem nest_wellFormed {t : Tree} (ht : t.WellFormed) {names : List String}
    (hnames : ∀ name ∈ names, IsName name) : (nest t names).WellFormed := by
  induction names with
  | nil => exact ht
  | cons name r ih =>
    obtain ⟨hname, hr⟩ := List.forall_mem_cons.mp hnames
    refine .folder (by simpa using hname) (by simp) ?_
    simpa using ih hr

theorem find_nest (t : Tree) (names : List String) : (nest t names).find names = some t := by
  induction names with
  | nil => rfl
  | cons name r ih => rw [nest, find, List.lookup_cons, beq_self_eq_true, Option.bind_some, ih]

def longFolder : String := String.ofList (List.replicate 250 'x')

def deepFolders : List String := List.replicate 17 longFolder

def deepTree : Tree := nest (.file []) (deepFolders ++ ["f.py"])

theorem isName_longFolder : IsName longFolder := by
  have hchars : longFolder.toList = List.replicate 250 'x' := String.toList_ofList
  refine ⟨isPart_of_one_lt_length ?_ ?_, ?_, ?_⟩
  · rw [hchars, List.length_replicate]
    decide
  · rw [hchars]
    decide
  · intro heq
    rw [heq] at hchars
    exact absurd hchars (by decide)
  · rw [hchars]
    decide

/-- The file at the bottom lies below no ignored folder, and it is not collected. -/
theorem not_isListing_deepTree : deepTree.WellFormed ∧
    ¬ IsListing (fun _ => false) [] deepTree
      (collect (shutBelow (.folder [("p", deepTree)]) ⟨.root, ["p"]⟩) [] deepTree) := by
  have hwf : deepTree.WellFormed := by
    refine nest_wellFormed (.file []) (List.forall_mem_append.mpr ⟨?_, by decide⟩)
    exact fun name hname => List.eq_of_mem_replicate hname ▸ isName_longFolder
  refine ⟨hwf, fun hlisting => ?_⟩
  have hfile : (deepTree.find (deepFolders ++ ["f.py"])).any isFile = true := by
    rw [deepTree, find_nest]
    rfl
  have hlisted := (hlisting.mem_iff _).mpr ⟨deepFolders, "f.py", rfl, hfile,
    fun _ _ => List.not_mem_nil, fun _ _ => rfl⟩
  obtain ⟨parts, heq, hparts, -, hopen⟩ := (mem_collect hwf).mp hlisted
  obtain ⟨u, hu, -⟩ := (Option.any_eq_true _ _).mp hparts
  obtain ⟨v, hv, -⟩ := (Option.any_eq_true _ _).mp hfile
  obtain rfl := ofParts_inj (fun p hp => (hwf.isName_of_find hu p hp).1)
    (fun p hp => (hwf.isName_of_find hv p hp).1) heq
  have hshut : shutBelow (.folder [("p", deepTree)]) ⟨.root, ["p"]⟩ deepFolders = true := by
    have hlong : pathLimit ≤ (Path.down ⟨.root, ["p"]⟩ deepFolders).text.utf8ByteSize := by
      decide +kernel
    have hnull : (Path.down ⟨.root, ["p"]⟩ deepFolders).holdsNull = false := by decide +kernel
    rw [shutBelow, refuses, hnull, decide_eq_true hlong]
    rfl
  rw [opensTo_concat.mp hopen deepFolders (List.prefix_refl _)] at hshut
  cases hshut

end Collected

end Source

end ChangeImpact
