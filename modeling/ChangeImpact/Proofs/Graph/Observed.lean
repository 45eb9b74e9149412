import ChangeImpact.Proofs.Graph.Edges
import ChangeImpact.Proofs.Source.Listing
import Mathlib.Algebra.BigOperators.Group.Finset.Basic
import Mathlib.Algebra.Order.BigOperators.Group.Multiset

/-!
# What is observed of a graph

All that can be asked of a graph is answered from one list of edges: the imports and the dependents
of a file, the number of edges, the table of dependents, and the files that are imported. After any
calls this is the list of the edges that count, each where it was recorded first.
-/

namespace ChangeImpact.ImportGraph

def IsTarget (es : List Edge) (path : String) : Prop := ∃ e ∈ es, e.2 = path

instance (es : List Edge) (path : String) : Decidable (IsTarget es path) :=
  inferInstanceAs (Decidable (∃ e ∈ es, _))

/-- All answers that a graph gives are those of the edges. The imported files stand in the order in
which they come up first, be it as the file that imports or as the one that is imported. -/
structure Observes (g : ImportGraph) (es : List Edge) : Prop where
  dependentsOf_eq : ∀ path, g.dependentsOf path = (es.filter (·.2 == path)).map (·.1)
  importsOf_eq : ∀ path, g.importsOf path = (es.filter (·.1 == path)).map (·.2)
  numEdges_eq : g.numEdges = es.length
  targets_eq : g.targets = (endpoints es).filter (IsTarget es)
  size_eq : g.size = (es.map (·.2)).eraseDups.length
  contains_iff : ∀ path, g.contains path ↔ IsTarget es path
  table_targets : g.sortedDependents.map (·.1) = g.targets
  table_nodup : ∀ entry ∈ g.sortedDependents, entry.2.Nodup
  mem_table : ∀ entry ∈ g.sortedDependents, ∀ path, path ∈ entry.2 ↔ (path, entry.1) ∈ es
  table_size : (g.sortedDependents.map (·.2.length)).foldr (· + ·) 0 = es.length

variable {es : List Edge} {path : String}

theorem isTarget_iff_mem : IsTarget es path ↔ path ∈ es.map (·.2) := by
  rw [IsTarget, List.mem_map]

theorem length_importsIn (es : List Edge) (path : String) :
    (importsIn es path).length = (es.map (·.1)).count path := by
  rw [importsIn, List.length_map, ← List.countP_eq_length_filter, List.count, List.countP_map]
  rfl

theorem length_dependentsIn (es : List Edge) (path : String) :
    (dependentsIn es path).length = (es.map (·.2)).count path := by
  rw [dependentsIn, List.length_map, ← List.countP_eq_length_filter, List.count, List.countP_map]
  rfl

theorem dependentsIn_eq_nil : dependentsIn es path = [] ↔ ¬ IsTarget es path := by
  rw [← List.length_eq_zero_iff, length_dependentsIn, List.count_eq_zero, isTarget_iff_mem]

theorem sum_map_count {keys l : List String} (hnodup : keys.Nodup) (hmem : ∀ a ∈ l, a ∈ keys) :
    (keys.map l.count).foldr (· + ·) 0 = l.length := by
  have hcard := Multiset.sum_count_eq_card (s := keys.toFinset) (m := (l : Multiset String))
    (by simpa using hmem)
  rw [List.sum_toFinset _ hnodup] at hcard
  simpa [List.sum_eq_foldr] using hcard

theorem nodup_endpoints (es : List Edge) : (endpoints es).Nodup := nodup_eraseDups _

theorem numEdges_ofEdges (es : List Edge) : (ofEdges es).numEdges = es.length := by
  have hmem : ∀ a ∈ es.map (·.1), a ∈ endpoints es := by
    rw [List.forall_mem_map]
    exact fun e he => mem_endpoints.mpr ⟨e, he, .inl rfl⟩
  have hlengths : (endpoints es).map (fun path => (importsIn es path).length) =
      (endpoints es).map (es.map (·.1)).count :=
    List.map_congr_left fun path _ => length_importsIn es path
  rw [numEdges, ofEdges, List.map_map]
  calc ((endpoints es).map fun path => (importsIn es path).length).foldr (· + ·) 0
    _ = ((endpoints es).map (es.map (·.1)).count).foldr (· + ·) 0 := by rw [hlengths]
    _ = es.length := by rw [sum_map_count (nodup_endpoints es) hmem, List.length_map]

theorem targets_ofEdges (es : List Edge) :
    (ofEdges es).targets = (endpoints es).filter (IsTarget es) := by
  rw [targets, ofEdges, List.filter_map, List.map_map]
  have hpath : ((·.path) ∘ nodeIn es : String → String) = id := rfl
  rw [hpath, List.map_id]
  refine List.filter_congr fun path _ => ?_
  rw [Bool.eq_iff_iff]
  simp [nodeIn, dependentsIn_eq_nil]

theorem mem_targets_ofEdges : path ∈ (ofEdges es).targets ↔ IsTarget es path := by
  rw [targets_ofEdges, List.mem_filter, decide_eq_true_iff, and_iff_right_iff_imp]
  intro htarget
  obtain ⟨e, he, rfl⟩ := htarget
  exact mem_endpoints.mpr ⟨e, he, .inr rfl⟩

theorem nodup_targets_ofEdges (es : List Edge) : (ofEdges es).targets.Nodup := by
  rw [targets_ofEdges]
  exact (nodup_endpoints es).filter _

theorem size_ofEdges (es : List Edge) : (ofEdges es).size = (es.map (·.2)).eraseDups.length := by
  refine ((List.perm_ext_iff_of_nodup (nodup_targets_ofEdges es) (nodup_eraseDups _)).mpr
    fun path => ?_).length_eq
  rw [mem_targets_ofEdges, isTarget_iff_mem, List.mem_eraseDups]

theorem contains_ofEdges : (ofEdges es).contains path ↔ IsTarget es path := by
  rw [contains, dependentsOf_ofEdges, Bool.not_eq_true', List.isEmpty_eq_false_iff, ne_eq,
    dependentsIn_eq_nil, not_not]

theorem sortedDependents_ofEdges (es : List Edge) : (ofEdges es).sortedDependents =
    (ofEdges es).targets.map fun path => (path, Source.sorted (dependentsIn es path)) := by
  simp only [sortedDependents, dependentsOf_ofEdges, Source.sorted]

theorem sum_length_sortedDependents (es : List Edge) :
    ((ofEdges es).sortedDependents.map (·.2.length)).foldr (· + ·) 0 = es.length := by
  have hmem : ∀ a ∈ es.map (·.2), a ∈ (ofEdges es).targets := fun a ha =>
    mem_targets_ofEdges.mpr (isTarget_iff_mem.mpr ha)
  have hlengths : (ofEdges es).sortedDependents.map (·.2.length) =
      (ofEdges es).targets.map (es.map (·.2)).count := by
    rw [sortedDependents_ofEdges, List.map_map]
    refine List.map_congr_left fun path _ => ?_
    rw [Function.comp_apply, Source.sorted, List.length_mergeSort, length_dependentsIn]
  rw [hlengths, sum_map_count (nodup_targets_ofEdges es) hmem, List.length_map]

theorem observes_ofEdges (h : es.Nodup) : (ofEdges es).Observes es where
  dependentsOf_eq := dependentsOf_ofEdges es
  importsOf_eq := importsOf_ofEdges es
  numEdges_eq := numEdges_ofEdges es
  targets_eq := targets_ofEdges es
  size_eq := size_ofEdges es
  contains_iff _ := contains_ofEdges
  table_targets := by
    rw [sortedDependents_ofEdges, List.map_map]
    exact List.map_id _
  table_nodup := by
    rw [sortedDependents_ofEdges, List.forall_mem_map]
    exact fun path _ => (List.mergeSort_perm _ _).nodup_iff.mpr (nodup_dependentsIn h path)
  mem_table := by
    rw [sortedDependents_ofEdges, List.forall_mem_map]
    intro path _ referencer
    rw [Source.mem_sorted, mem_dependentsIn]
  table_size := sum_length_sortedDependents es

/-- Any calls leave a graph that answers from the distinct edges among their pairs. -/
theorem observes_after (calls : List Recording) :
    (after calls).Observes (distinct (calls.flatMap Recording.pairs)) := by
  rw [after_eq]
  exact observes_ofEdges (nodup_eraseDups _)

end ChangeImpact.ImportGraph
