import ChangeImpact.Proofs.Graph.Edges
import ChangeImpact.Proofs.Graph.Workers
import ChangeImpact.Proofs.Source.Listing

/-!
# The graph that a build records

The files come in the order of their paths, each with its imports, and a graph keeps each edge
where it is recorded first; so every list of dependents is sorted. `Importing` says when one file
imports another one. A build records nothing else, however many workers read the files.
-/

namespace ChangeImpact

namespace ImportGraph

theorem pairwise_dependentsIn {es : List Edge} (hsorted : es.Pairwise fun e f => e.1 ≤ f.1)
    (hnd : es.Nodup) (path : String) : (dependentsIn es path).Pairwise (· < ·) := by
  rw [dependentsIn, List.pairwise_map]
  have hboth := (hsorted.and hnd).filter (·.2 == path)
  refine hboth.imp_of_mem fun {e f} he hf hef => ?_
  have hpath : e.2 = f.2 := by
    simp only [List.mem_filter, beq_iff_eq] at he hf
    exact he.2.trans hf.2.symm
  exact lt_of_le_of_ne hef.1 fun h => hef.2 (Prod.ext h hpath)

theorem pairwise_distinct {pairs : List (String × Option String)}
    (h : pairs.Pairwise fun e f => e.1 ≤ f.1) :
    (distinct pairs).Pairwise fun e f => e.1 ≤ f.1 := by
  refine List.Pairwise.sublist (eraseDups_sublist _) (h.filterMap _ fun e f hef a ha b hb => ?_)
  obtain ⟨rfl, -⟩ := counted?_eq_some.mp ha
  obtain ⟨rfl, -⟩ := counted?_eq_some.mp hb
  exact hef

end ImportGraph

namespace Build

open ImportGraph

section

variable (settings : IndexSettings) (disk : Tree) (root : Path)

def sourcesOf : List String :=
  (filesOf settings disk root).filter fun path => (Language.ofPath? path).isSome

def specifiersIn (path : String) : List String :=
  Imports.ofText (Language.ofPath? path)
    ((Source.read? disk root settings.maxFileBytes path).getD "")

def resolver : Imports.Resolver :=
  ⟨(filesOf settings disk root).contains, settings.verifyImports⟩

def Importing (path target : String) : Prop :=
  path ∈ sourcesOf settings disk root ∧
    ∃ specifier ∈ specifiersIn settings disk root path,
      (resolver settings disk root).resolve? specifier path = some target

def scan (path : String) : List (String × Option String) :=
  (specifiersIn settings disk root path).map fun specifier =>
    (path, (resolver settings disk root).resolve? specifier path)

/-- Batches of edges that the scan of the sources can give: several workers share several
sources, and otherwise they are scanned one after the other. -/
def Scanned (batches : List (List (String × Option String))) : Prop :=
  if 1 < settings.workers ∧ 1 < (sourcesOf settings disk root).length then
    Pool.Delivers settings.workers.toNat (scan settings disk root)
      (sourcesOf settings disk root) batches
  else batches = (sourcesOf settings disk root).map (scan settings disk root)

theorem scanned_iff (batches : List (List (String × Option String))) :
    Scanned settings disk root batches ↔
      batches = (sourcesOf settings disk root).map (scan settings disk root) := by
  unfold Scanned
  split
  next h => exact Pool.delivers_iff (by omega)
  next => rfl

theorem graph_run : (run settings disk root).graph =
    ofEdges (distinct ((sourcesOf settings disk root).flatMap (scan settings disk root))) := by
  rw [run, ← recordAll_empty, readSources, List.flatMap_map]
  rfl

end

variable {m : Machine} {settings : IndexSettings} {disk : Tree} {root : Path}

theorem mem_flatMap_scan {path target : String} :
    (path, some target) ∈ (sourcesOf settings disk root).flatMap (scan settings disk root) ↔
      Importing settings disk root path target := by
  simp only [scan, List.mem_flatMap, List.mem_map, Importing]
  constructor
  · intro h
    obtain ⟨a, ha, specifier, hs, heq⟩ := h
    obtain ⟨rfl, hr⟩ := Prod.mk.inj heq
    exact ⟨ha, specifier, hs, hr⟩
  · intro h
    obtain ⟨hmem, specifier, hs, hr⟩ := h
    exact ⟨path, hmem, specifier, hs, by rw [hr]⟩

theorem pairwise_flatMap_scan :
    ((sourcesOf settings disk root).flatMap (scan settings disk root)).Pairwise
      fun e f => e.1 ≤ f.1 := by
  rw [List.pairwise_flatMap]
  refine ⟨fun a _ => ?_, (pairwise_filesOf.filter _).imp fun {a b} hab => ?_⟩
  · rw [scan, List.pairwise_map]
    exact List.pairwise_of_forall fun _ _ => le_rfl
  · simp only [scan, List.mem_map]
    intro _ he _ hf
    obtain ⟨_, _, rfl⟩ := he
    obtain ⟨_, _, rfl⟩ := hf
    exact hab

theorem mem_distinct_scan {path target : String} :
    (path, target) ∈ distinct ((sourcesOf settings disk root).flatMap (scan settings disk root)) ↔
      path ≠ target ∧ Importing settings disk root path target := by
  rw [mem_distinct, mem_flatMap_scan]
  constructor
  · intro h
    obtain ⟨himp, -, hne⟩ := h
    exact ⟨Ne.symm hne, himp⟩
  · intro h
    obtain ⟨hne, himp⟩ := h
    obtain ⟨-, specifier, -, hr⟩ := id himp
    exact ⟨himp, (Imports.Resolver.resolve?_spec hr).2.1, Ne.symm hne⟩

theorem mem_dependentsOf_run {path target : String} :
    path ∈ (run settings disk root).graph.dependentsOf target ↔
      path ≠ target ∧ Importing settings disk root path target := by
  rw [graph_run, dependentsOf_ofEdges, mem_dependentsIn, mem_distinct_scan]

theorem mem_importsOf_run {path target : String} :
    target ∈ (run settings disk root).graph.importsOf path ↔
      path ∈ (run settings disk root).graph.dependentsOf target := by
  rw [mem_dependentsOf_run, graph_run, importsOf_ofEdges, mem_importsIn, mem_distinct_scan]

theorem pairwise_dependentsOf_run (target : String) :
    ((run settings disk root).graph.dependentsOf target).Pairwise (· < ·) := by
  rw [graph_run, dependentsOf_ofEdges]
  exact pairwise_dependentsIn (pairwise_distinct pairwise_flatMap_scan) (nodup_eraseDups _) target

theorem fault?_eq_none (h : disk.WellFormed)
    (hsize : Source.sizeFault? m settings.maxFileBytes = none) :
    fault? m settings disk root = none := by
  rw [fault?, List.findSome?_eq_none_iff]
  simp only [readSources, List.mem_map, List.mem_filter]
  intro _ hsource
  obtain ⟨path, ⟨hmem, -⟩, rfl⟩ := hsource
  -- A file that is found has a name that can be read, so that only the limit can be refused.
  obtain ⟨-, -, -, -, hfile, -⟩ := (mem_filesOf h).mp hmem
  obtain ⟨t, ht, -⟩ := (Option.any_eq_true _ _).mp hfile
  simp [Source.readFault?, (h.at? ht).2, hsize]

theorem attempt_eq_ok {b : Build} (h : attempt m settings disk root = .ok b) :
    b = run settings disk root := by
  unfold attempt ifNoFault at h
  split at h
  · cases h
  · exact (Except.ok.inj h).symm

theorem attempt_of_sizeFault?_eq_none (h : disk.WellFormed)
    (hsize : Source.sizeFault? m settings.maxFileBytes = none) :
    attempt m settings disk root = .ok (run settings disk root) := by
  rw [attempt, fault?_eq_none h hsize, ifNoFault]

theorem after_scanned {batches : List (List (String × Option String))}
    (h : Scanned settings disk root batches) :
    after (batches.map .batch) = (run settings disk root).graph := by
  rw [(scanned_iff settings disk root batches).mp h, after_eq, graph_run]
  simp only [List.flatMap_map, Recording.pairs]

theorem opensTo_of_not_refused {parts : List String} (hnull : (root.down parts).holdsNull = false)
    (hopen : disk.refuses (root.down parts) = false) :
    Source.opensTo (Source.shutBelow disk root) parts = true := by
  obtain rfl | ⟨folders, name, rfl⟩ := List.eq_nil_or_concat parts
  · rfl
  · rw [List.concat_eq_append] at *
    refine Source.opensTo_concat.mpr fun above habove => ?_
    by_contra hshut
    rw [Bool.not_eq_false] at hshut
    have hrefused := Tree.refuses_of_prefix (habove.trans (List.prefix_append folders [name])) hnull
      hshut
    rw [hopen] at hrefused
    cases hrefused

theorem contains_filesOf (h : disk.WellFormed) {path : String}
    (hpath : ∃ parts, Path.ofParts parts = path ∧ (∀ p ∈ parts, Path.IsPart p) ∧ parts ≠ [] ∧
      ".." ∉ parts) (hopen : disk.refuses (root.child path) = false) :
    (filesOf settings disk root).contains path = (disk.isFileAt (root.child path) &&
      Imports.Resolver.isKept settings.ignored path) := by
  obtain ⟨parts, rfl, hpart, hne, hup⟩ := hpath
  rw [Bool.eq_iff_iff, List.contains_iff_mem, mem_filesOf h, Bool.and_eq_true]
  constructor
  · intro hlisted
    obtain ⟨_, _, _, _, hfile, hkept, -⟩ := hlisted
    exact ⟨hfile, hkept⟩
  · intro hboth
    obtain ⟨hfile, hkept⟩ := hboth
    obtain ⟨u, hu, -⟩ := (Option.any_eq_true _ _).mp hfile
    have hnull := (h.at? hu).2
    rw [Tree.child_ofParts hpart] at hopen hnull
    refine ⟨parts, rfl, hne, ?_, hfile, hkept, opensTo_of_not_refused hnull hopen⟩
    rw [Tree.at?_child hpart hup] at hu
    obtain ⟨t, ht, hu⟩ := Option.bind_eq_some_iff.mp hu
    exact (h.at? ht).1.isName_of_find hu

/-- A file below no ignored folder is found among the collected files just as on the disk, where the
disk refuses no path on the way to an answer. -/
theorem resolve?_filesOf (h : disk.WellFormed) {specifier path target : String}
    (hpath : path.toList.head? ≠ some '/')
    (hlooked : ∀ file ∈ Imports.Resolver.passedOver ⟨Source.isFileIn disk root,
      settings.verifyImports⟩ specifier path, disk.refuses (root.child file) = false)
    (htarget : Imports.Resolver.isKept settings.ignored target) :
    (resolver settings disk root).resolve? specifier path = some target ↔
      Imports.Resolver.resolve? ⟨Source.isFileIn disk root, settings.verifyImports⟩ specifier
        path = some target := by
  refine Imports.Resolver.resolve?_ignored hpath (fun file hfile => ?_)
    (fun file hfile hthere => ?_) htarget
  · obtain ⟨hmem, hmissing⟩ := Imports.Resolver.of_mem_passedOver hfile
    have hopen := hlooked file hfile
    change Source.isFileIn disk root file = false at hmissing
    rw [Source.isFileIn, hopen, Bool.not_false, Bool.true_and] at hmissing
    rw [contains_filesOf h (Imports.Resolver.exists_parts_of_mem_candidates hpath hmem) hopen,
      hmissing, Bool.false_and]
  · rw [Source.isFileIn, Bool.and_eq_true, Bool.not_eq_true'] at hthere
    rw [contains_filesOf h (Imports.Resolver.exists_parts_of_mem_candidates hpath hfile) hthere.1,
      hthere.2, Bool.true_and]

/-- A build ends, and its graph holds the imports between collected files and nothing else. -/
theorem attempt_records_imports (m : Machine) (settings : IndexSettings) (disk : Tree) (root : Path)
    (hverify : settings.verifyImports = true) :
    (disk.WellFormed → Source.sizeFault? m settings.maxFileBytes = none →
      ∃ b, attempt m settings disk root = .ok b) ∧
    ∀ b, attempt m settings disk root = .ok b →
      (∀ target, (b.graph.dependentsOf target).Pairwise (· < ·) ∧
        ∀ path, path ∈ b.graph.dependentsOf target ↔
          path ≠ target ∧ Importing settings disk root path target) ∧
      (∀ path target, path ∈ b.graph.dependentsOf target ∨ target ∈ b.graph.importsOf path →
        path ∈ filesOf settings disk root ∧ target ∈ filesOf settings disk root ∧
          path ≠ target) ∧
      (∃ batches, Scanned settings disk root batches) ∧
      ∀ batches, Scanned settings disk root batches → after (batches.map .batch) = b.graph := by
  refine ⟨fun hwf hsize => ⟨_, attempt_of_sizeFault?_eq_none hwf hsize⟩, fun b hb => ?_⟩
  obtain rfl := attempt_eq_ok hb
  refine ⟨fun target => ⟨pairwise_dependentsOf_run target, fun path => mem_dependentsOf_run⟩,
    fun path target hedge => ?_, ⟨_, (scanned_iff settings disk root _).mpr rfl⟩,
    fun batches hscan => after_scanned hscan⟩
  rw [mem_importsOf_run, or_self, mem_dependentsOf_run] at hedge
  obtain ⟨hne, hsource, specifier, -, hr⟩ := hedge
  have hknown := (Imports.Resolver.resolve?_spec hr).2.2.2 hverify
  exact ⟨(List.mem_filter.mp hsource).1, List.contains_iff_mem.mp hknown, hne⟩

def twoScripts : Tree :=
  .folder [("p", .folder
    [("a.js", .file ("import './b'".toList.map Char.toUInt8)), ("b.js", .file [])])]

theorem twoScripts_wellFormed : twoScripts.WellFormed := by
  refine .folder (by decide) (by decide) ?_
  simp only [List.mem_singleton, forall_eq]
  refine .folder (by decide) (by decide) ?_
  simp only [List.mem_cons, List.not_mem_nil, or_false, forall_eq_or_imp, forall_eq]
  exact ⟨.file _, .file _⟩

theorem twoScripts_records_import :
    ({} : IndexSettings).verifyImports = true ∧
    ∃ b, attempt .usual {} twoScripts ⟨.root, ["p"]⟩ = .ok b ∧
      (b.graph.dependentsOf "b.js").Pairwise (· < ·) ∧ "a.js" ∈ b.graph.dependentsOf "b.js" ∧
      "b.js" ∉ b.graph.dependentsOf "b.js" := by
  have hmain := attempt_records_imports .usual {} twoScripts ⟨.root, ["p"]⟩ rfl
  obtain ⟨b, hb⟩ := hmain.1 twoScripts_wellFormed (by decide)
  obtain ⟨hsorted, hiff⟩ := (hmain.2 b hb).1 "b.js"
  refine ⟨rfl, b, hb, hsorted, (hiff "a.js").mpr ⟨by decide, ?_, "./b", ?_, ?_⟩, fun h =>
    ((hiff "b.js").mp h).1 rfl⟩
  · refine List.mem_filter.mpr ⟨(mem_filesOf twoScripts_wellFormed).mpr ?_, by decide +kernel⟩
    exact ⟨["a.js"], rfl, by decide, by decide, by decide +kernel, by decide +kernel,
      by decide +kernel⟩
  · decide +kernel
  · rw [resolve?_filesOf twoScripts_wellFormed (by decide) (by decide +kernel) (by decide +kernel)]
    decide +kernel

end Build

end ChangeImpact
