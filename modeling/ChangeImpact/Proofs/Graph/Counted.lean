import ChangeImpact.Proofs.Graph.Built
import ChangeImpact.Proofs.Graph.Observed
import ChangeImpact.Proofs.Imports.Scanning
import ChangeImpact.Proofs.Imports.Segments
import ChangeImpact.Proofs.Source.Walk

/-!
# What a build counts

The files that a build counts are those of its listing, and the targets are those of its graph. An
edge is counted for each specifier that leads to another file, but recorded once for each file that
is led to; so the edges are those of the graph just where no source leads to one file twice.
-/

namespace ChangeImpact

theorem length_eraseDups_eq_iff {α : Type} [BEq α] [LawfulBEq α] {l : List α} :
    l.eraseDups.length = l.length ↔ l.Nodup := by
  constructor
  · intro h
    rw [← (eraseDups_sublist l).eq_of_length h]
    exact nodup_eraseDups l
  · intro h
    rw [eraseDups_of_nodup h]

namespace Build

open ImportGraph

section

variable (settings : IndexSettings) (disk : Tree) (root : Path)

/-- The files that a source leads to, once for each specifier that does so. -/
def targetsOf (path : String) : List String :=
  (specifiersIn settings disk root path).filterMap fun specifier =>
    (resolver settings disk root).resolve? specifier path

def counted : List Edge :=
  (sourcesOf settings disk root).flatMap fun path =>
    (targetsOf settings disk root path).map fun target => (path, target)

theorem filterMap_scan (path : String) :
    (scan settings disk root path).filterMap counted? =
      (targetsOf settings disk root path).map fun target => (path, target) := by
  rw [scan, List.filterMap_map, targetsOf, List.map_filterMap]
  refine List.filterMap_congr fun specifier _ => ?_
  rw [Function.comp_apply, counted?]
  cases htarget : (resolver settings disk root).resolve? specifier path with
  | none => rfl
  | some target =>
    -- A specifier leads neither to the empty path nor to the file it stands in.
    obtain ⟨-, hne, hother, -⟩ := Imports.Resolver.resolve?_spec htarget
    simp [isEdge, hne, hother]

theorem filterMap_flatMap_scan :
    ((sourcesOf settings disk root).flatMap (scan settings disk root)).filterMap counted? =
      counted settings disk root := by
  rw [List.filterMap_flatMap, counted]
  simp only [filterMap_scan]

theorem edges_run : (run settings disk root).stats.edges = (counted settings disk root).length := by
  have hrecord := congrArg Prod.snd (recordAll_ofEdges
    ((sourcesOf settings disk root).flatMap (scan settings disk root)) [])
  rw [filterMap_flatMap_scan] at hrecord
  refine Eq.trans ?_ hrecord
  rw [run, readSources, List.flatMap_map]
  rfl

theorem numEdges_run : (run settings disk root).graph.numEdges =
    (counted settings disk root).eraseDups.length := by
  rw [graph_run, numEdges_ofEdges, distinct, filterMap_flatMap_scan]

theorem filesScanned_add_filesSkipped_run :
    (run settings disk root).stats.filesScanned + (run settings disk root).stats.filesSkipped =
      (sourcesOf settings disk root).length := by
  have hlength : (readSources settings disk root (filesOf settings disk root)).length =
      (sourcesOf settings disk root).length := by
    rw [readSources, List.length_map]
    rfl
  rw [← hlength]
  exact Nat.sub_add_cancel (List.length_filter_le _ _)

variable {settings disk root}

theorem nodup_sourcesOf (h : disk.WellFormed) : (sourcesOf settings disk root).Nodup := by
  refine List.Nodup.filter _ ?_
  by_cases hfolder : ∃ entries, disk.at? root = some (.folder entries)
  · obtain ⟨entries, ht⟩ := hfolder
    rw [filesOf_of_folder ht]
    exact (Source.isListing_collect (h.at? ht).1).increasing.imp ne_of_lt
  · rw [filesOf_of_not_folder fun entries ht => hfolder ⟨entries, ht⟩]
    exact List.nodup_nil

theorem nodup_counted_iff (h : disk.WellFormed) : (counted settings disk root).Nodup ↔
    ∀ path ∈ sourcesOf settings disk root, (targetsOf settings disk root path).Nodup := by
  have hpair (path : String) : Function.Injective fun target : String => (path, target) :=
    fun _ _ heq => (Prod.mk.inj heq).2
  have hapart : (sourcesOf settings disk root).Pairwise (Function.onFun List.Disjoint fun path =>
      (targetsOf settings disk root path).map fun target => (path, target)) := by
    refine (nodup_sourcesOf h).imp fun {a b} hne e ha hb => ?_
    obtain ⟨_, -, rfl⟩ := List.mem_map.mp ha
    obtain ⟨_, -, heq⟩ := List.mem_map.mp hb
    exact hne (Prod.mk.inj heq).1.symm
  rw [counted, List.nodup_flatMap, and_iff_left hapart]
  refine forall₂_congr fun path _ => ?_
  exact List.nodup_map_iff (hpair path)

end

/-- The numbers of a build are those of its listing and of its graph. More edges are counted than
there are where a source leads to one file by two of its specifiers, and nowhere else. -/
theorem edges_eq_numEdges_iff (m : Machine) (settings : IndexSettings) (disk : Tree) (root : Path)
    (hwf : disk.WellFormed) :
    (Source.sizeFault? m settings.maxFileBytes = none →
      ∃ b, attempt m settings disk root = .ok b) ∧
    ∀ b, attempt m settings disk root = .ok b →
      b.stats.targets = b.graph.size ∧
      b.stats.filesScanned + b.stats.filesSkipped = (sourcesOf settings disk root).length ∧
      b.stats.filesFound = (filesOf settings disk root).length ∧
      b.graph.numEdges ≤ b.stats.edges ∧
      (b.stats.edges = b.graph.numEdges ↔
        ∀ path ∈ sourcesOf settings disk root, (targetsOf settings disk root path).Nodup) := by
  refine ⟨fun hsize => ⟨_, attempt_of_sizeFault?_eq_none hwf hsize⟩, fun b hb => ?_⟩
  obtain rfl := attempt_eq_ok hb
  refine ⟨rfl, filesScanned_add_filesSkipped_run settings disk root, rfl, ?_, ?_⟩
  · rw [numEdges_run, edges_run]
    exact (eraseDups_sublist _).length_le
  · rw [numEdges_run, edges_run, eq_comm, length_eraseDups_eq_iff, nodup_counted_iff hwf]

def repeatedImport : Tree :=
  .folder [("p", .folder
    [("a.js", .file ("import './b'\nimport './b'".toList.map Char.toUInt8)),
      ("b.js", .file [])])]

theorem repeatedImport_wellFormed : repeatedImport.WellFormed := by
  refine .folder (by decide) (by decide) ?_
  simp only [List.mem_singleton, forall_eq]
  refine .folder (by decide) (by decide) ?_
  simp only [List.mem_cons, List.not_mem_nil, or_false, forall_eq_or_imp, forall_eq]
  exact ⟨.file _, .file _⟩

theorem filesOf_repeatedImport : filesOf {} repeatedImport ⟨.root, ["p"]⟩ = ["a.js", "b.js"] := by
  have hlisted : filesOf {} repeatedImport ⟨.root, ["p"]⟩ = Source.sorted ["a.js", "b.js"] := by
    refine congrArg Source.sorted ?_
    decide +kernel
  rw [hlisted]
  exact List.mergeSort_of_pairwise (by decide)

theorem sourcesOf_repeatedImport :
    sourcesOf {} repeatedImport ⟨.root, ["p"]⟩ = ["a.js", "b.js"] := by
  rw [sourcesOf, filesOf_repeatedImport]
  decide +kernel

theorem specifiersIn_repeatedImport :
    specifiersIn {} repeatedImport ⟨.root, ["p"]⟩ "a.js" = ["./b", "./b"] := by
  have hlanguage : Language.ofPath? "a.js" = some .ecmascript := by decide +kernel
  have htext : Source.read? repeatedImport ⟨.root, ["p"]⟩ ({} : IndexSettings).maxFileBytes
      "a.js" = some "import './b'\nimport './b'" := by decide +kernel
  have hfound : (Imports.EcmaScript.forms.flatMap fun form =>
      Imports.findAll form "import './b'\nimport './b'".toList) =
        [(0, "./b".toList), (13, "./b".toList)] := by decide +kernel
  rw [specifiersIn, hlanguage, htext, Option.getD_some, Imports.ofText, Imports.specifiers,
    Imports.EcmaScript.specifiers, hfound, Imports.inOrder_of_perm (List.Perm.refl _) (by simp)]
  rfl

theorem targetsOf_repeatedImport :
    targetsOf {} repeatedImport ⟨.root, ["p"]⟩ "a.js" = ["b.js", "b.js"] := by
  rw [targetsOf, specifiersIn_repeatedImport, resolver, filesOf_repeatedImport]
  decide +kernel

theorem counted_repeatedImport :
    counted {} repeatedImport ⟨.root, ["p"]⟩ = [("a.js", "b.js"), ("a.js", "b.js")] := by
  have hlanguage : Language.ofPath? "b.js" = some .ecmascript := by decide +kernel
  have htext : Source.read? repeatedImport ⟨.root, ["p"]⟩ ({} : IndexSettings).maxFileBytes
      "b.js" = some "" := by decide +kernel
  have hempty : targetsOf {} repeatedImport ⟨.root, ["p"]⟩ "b.js" = [] := by
    rw [targetsOf, specifiersIn, hlanguage, htext, Option.getD_some, Imports.ofText,
      Imports.specifiers_empty, List.filterMap_nil]
  rw [counted, sourcesOf_repeatedImport, List.flatMap_cons, List.flatMap_singleton, hempty,
    targetsOf_repeatedImport]
  rfl

theorem edges_repeatedImport :
    ∃ b, attempt .usual {} repeatedImport ⟨.root, ["p"]⟩ = .ok b ∧
      b.stats.edges = 2 ∧ b.graph.numEdges = 1 := by
  refine ⟨_, attempt_of_sizeFault?_eq_none repeatedImport_wellFormed (by decide), ?_, ?_⟩
  · rw [edges_run, counted_repeatedImport]
    rfl
  · rw [numEdges_run, counted_repeatedImport]
    decide

theorem numEdges_lt_edges_repeatedImport :
    repeatedImport.WellFormed ∧ ∃ b, attempt .usual {} repeatedImport ⟨.root, ["p"]⟩ = .ok b ∧
      b.stats.targets = b.graph.size ∧ b.graph.numEdges < b.stats.edges := by
  have hmain := edges_eq_numEdges_iff .usual {} repeatedImport ⟨.root, ["p"]⟩
    repeatedImport_wellFormed
  obtain ⟨b, hb⟩ := hmain.1 (by decide)
  obtain ⟨htargets, -, -, hle, hiff⟩ := hmain.2 b hb
  refine ⟨repeatedImport_wellFormed, b, hb, htargets, lt_of_le_of_ne hle fun heq => ?_⟩
  have hmem : "a.js" ∈ sourcesOf {} repeatedImport ⟨.root, ["p"]⟩ := by
    rw [sourcesOf_repeatedImport]
    exact List.mem_cons_self
  have hnodup := hiff.mp heq.symm "a.js" hmem
  rw [targetsOf_repeatedImport] at hnodup
  exact absurd hnodup (by decide)

end Build

end ChangeImpact
