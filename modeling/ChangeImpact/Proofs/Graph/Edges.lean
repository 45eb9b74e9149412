import ChangeImpact.Graph.Basic
import ChangeImpact.Proofs.Data.Entries

/-!
# A graph as a list of edges

Everything that a graph can hold after any calls is told by one list: the edges that count, each
where it was recorded first. `ofEdges` spells out the graph of such a list, `connect` adds one
edge to it, and `after_eq` gives the list that a sequence of calls leaves.
-/

namespace ChangeImpact

namespace ImportGraph

abbrev Edge := String × String

def importsIn (es : List Edge) (path : String) : List String :=
  (es.filter (·.1 == path)).map (·.2)

def dependentsIn (es : List Edge) (path : String) : List String :=
  (es.filter (·.2 == path)).map (·.1)

def nodeIn (es : List Edge) (path : String) : ImportNode :=
  ⟨path, importsIn es path, dependentsIn es path⟩

def endpoints (es : List Edge) : List String := (es.flatMap fun e => [e.1, e.2]).eraseDups

def ofEdges (es : List Edge) : ImportGraph := ⟨(endpoints es).map (nodeIn es)⟩

def extend {α : Type} [BEq α] (l : List α) (a : α) : List α :=
  if l.contains a then l else l ++ [a]

section Extend

variable {α : Type} [BEq α] [LawfulBEq α]

theorem mem_extend {l : List α} {a b : α} : b ∈ extend l a ↔ b ∈ l ∨ b = a := by
  unfold extend
  split
  next h =>
    rw [List.contains_iff_mem] at h
    exact ⟨.inl, by rintro (hb | rfl) <;> assumption⟩
  next => simp

theorem extend_of_mem {l : List α} {a : α} (h : a ∈ l) : extend l a = l := by
  simp [extend, h]

theorem extend_of_notMem {l : List α} {a : α} (h : a ∉ l) : extend l a = l ++ [a] := by
  simp [extend, h]

theorem removeAll_append (l known : List α) (a : α) :
    l.removeAll (known ++ [a]) = (l.removeAll known).filter fun b => !b == a := by
  simp only [List.removeAll, List.filter_filter]
  refine List.filter_congr fun b _ => ?_
  by_cases hb : b = a <;> simp [List.elem_eq_contains, hb]

theorem foldl_extend (l : List α) (known : List α) :
    l.foldl extend known = known ++ (l.removeAll known).eraseDups := by
  induction l generalizing known with
  | nil => simp
  | cons a r ih =>
    by_cases ha : a ∈ known
    · rw [List.foldl_cons, extend_of_mem ha, ih, List.cons_removeAll]
      simp [ha]
    · rw [List.foldl_cons, extend_of_notMem ha, ih, List.cons_removeAll, removeAll_append]
      simp [ha, List.eraseDups_cons]

theorem removeAll_eraseDups (l known : List α) :
    l.removeAll known.eraseDups = l.removeAll known := by
  refine List.filter_congr fun b _ => ?_
  simp [List.elem_eq_contains]

end Extend

theorem endpoints_extend (es : List Edge) (referencer target : String) :
    endpoints (es ++ [(referencer, target)]) =
      extend (extend (endpoints es) referencer) target := by
  have h := foldl_extend [referencer, target] (endpoints es)
  simp only [List.foldl_cons, List.foldl_nil] at h
  rw [h]
  simp only [endpoints, List.flatMap_append, List.eraseDups_append, removeAll_eraseDups,
    List.flatMap_cons, List.flatMap_nil, List.append_nil]

theorem mem_endpoints {es : List Edge} {path : String} :
    path ∈ endpoints es ↔ ∃ e ∈ es, path = e.1 ∨ path = e.2 := by
  simp [endpoints]

theorem mem_importsIn {es : List Edge} {path target : String} :
    target ∈ importsIn es path ↔ (path, target) ∈ es := by
  simp [importsIn]

theorem mem_dependentsIn {es : List Edge} {path referencer : String} :
    referencer ∈ dependentsIn es path ↔ (referencer, path) ∈ es := by
  simp [dependentsIn]

theorem nodeIn_of_notMem {es : List Edge} {path : String} (h : path ∉ endpoints es) :
    nodeIn es path = ⟨path, [], []⟩ := by
  have hi : importsIn es path = [] :=
    List.eq_nil_iff_forall_not_mem.mpr fun t ht =>
      h (mem_endpoints.mpr ⟨_, mem_importsIn.mp ht, .inl rfl⟩)
  have hd : dependentsIn es path = [] :=
    List.eq_nil_iff_forall_not_mem.mpr fun r hr =>
      h (mem_endpoints.mpr ⟨_, mem_dependentsIn.mp hr, .inr rfl⟩)
  rw [nodeIn, hi, hd]

theorem node?_map_nodeIn (es : List Edge) (paths : List String) (path : String) :
    (ImportGraph.mk (paths.map (nodeIn es))).node? path =
      if path ∈ paths then some (nodeIn es path) else none := by
  induction paths with
  | nil => rfl
  | cons p r ih =>
    simp only [node?, List.map_cons, List.find?_cons, nodeIn, List.mem_cons] at ih ⊢
    by_cases h : p = path
    · simp [h]
    · simp only [beq_eq_false_iff_ne.mpr h, ih, Ne.symm h, false_or]

@[simp] theorem dependentsOf_ofEdges (es : List Edge) (path : String) :
    (ofEdges es).dependentsOf path = dependentsIn es path := by
  rw [dependentsOf, ofEdges, node?_map_nodeIn]
  by_cases h : path ∈ endpoints es
  · simp [h, nodeIn]
  · have hn := nodeIn_of_notMem h
    simp only [nodeIn, ImportNode.mk.injEq] at hn
    simp [h, hn.2.2]

@[simp] theorem importsOf_ofEdges (es : List Edge) (path : String) :
    (ofEdges es).importsOf path = importsIn es path := by
  rw [importsOf, ofEdges, node?_map_nodeIn]
  by_cases h : path ∈ endpoints es
  · simp [h, nodeIn]
  · have hn := nodeIn_of_notMem h
    simp only [nodeIn, ImportNode.mk.injEq] at hn
    simp [h, hn.2.1]

theorem withNode_map_nodeIn {es : List Edge} {paths : List String}
    (hp : endpoints es ⊆ paths) (path : String) :
    (ImportGraph.mk (paths.map (nodeIn es))).withNode path =
      ⟨(extend paths path).map (nodeIn es)⟩ := by
  rw [withNode, node?_map_nodeIn]
  by_cases h : path ∈ paths
  · simp [h, extend]
  · simp [h, extend, nodeIn_of_notMem (fun he => h (hp he))]

theorem importsIn_append (es : List Edge) (referencer target path : String) :
    importsIn (es ++ [(referencer, target)]) path =
      importsIn es path ++ if path = referencer then [target] else [] := by
  rcases eq_or_ne path referencer with rfl | h
  · simp [importsIn]
  · simp [importsIn, h, h.symm]

theorem dependentsIn_append (es : List Edge) (referencer target path : String) :
    dependentsIn (es ++ [(referencer, target)]) path =
      dependentsIn es path ++ if path = target then [referencer] else [] := by
  rcases eq_or_ne path target with rfl | h
  · simp [dependentsIn]
  · simp [dependentsIn, h, h.symm]

theorem connect_ofEdges (es : List Edge) (referencer target : String) :
    (ofEdges es).connect referencer target = ofEdges (extend es (referencer, target)) := by
  by_cases h : (referencer, target) ∈ es
  · simp [connect, extend_of_mem h, mem_importsIn, h]
  · have hs : endpoints es ⊆ extend (endpoints es) referencer := fun p hp =>
      mem_extend.mpr (.inl hp)
    have hn : ((ofEdges es).withNode referencer).withNode target =
        ⟨(endpoints (es ++ [(referencer, target)])).map (nodeIn es)⟩ := by
      rw [ofEdges, withNode_map_nodeIn (fun _ => id), withNode_map_nodeIn hs, endpoints_extend]
    have hc : ((ofEdges es).importsOf referencer).contains target = false := by
      simp [mem_importsIn, h]
    rw [extend_of_notMem h]
    rw [connect, hc, hn]
    simp only [Bool.false_eq_true, if_false, modify, ofEdges, List.map_map, ImportGraph.mk.injEq]
    refine List.map_congr_left fun p _ => ?_
    simp only [Function.comp_apply, nodeIn, importsIn_append, dependentsIn_append, beq_iff_eq]
    clear hn hc
    rcases eq_or_ne p referencer with rfl | hr <;> rcases eq_or_ne p target with rfl | ht <;>
      simp_all

def counted? (e : String × Option String) : Option Edge :=
  match e.2 with
  | some t => if isEdge e.1 t then some (e.1, t) else none
  | none => none

theorem counted?_eq_some {e : String × Option String} {referencer target : String} :
    counted? e = some (referencer, target) ↔
      e = (referencer, some target) ∧ target ≠ "" ∧ target ≠ referencer := by
  obtain ⟨r, t⟩ := e
  cases t with
  | none => simp [counted?]
  | some t => simp only [counted?, isEdge]; grind

theorem record_ofEdges (es : List Edge) (referencer : String) (target : Option String) :
    (ofEdges es).record referencer target =
      (ofEdges ((counted? (referencer, target)).toList.foldl extend es),
        (counted? (referencer, target)).isSome) := by
  cases target with
  | none => rfl
  | some t =>
    by_cases h : isEdge referencer t <;> simp [record, counted?, h, connect_ofEdges]

theorem recordAll_ofEdges (pairs : List (String × Option String)) (es : List Edge) :
    (ofEdges es).recordAll pairs =
      (ofEdges ((pairs.filterMap counted?).foldl extend es),
        (pairs.filterMap counted?).length) := by
  induction pairs generalizing es with
  | nil => rfl
  | cons p r ih =>
    obtain ⟨referencer, target⟩ := p
    simp only [recordAll, record_ofEdges, ih, List.filterMap_cons]
    cases counted? (referencer, target) with
    | none => rfl
    | some e => rfl

inductive Recording where
  | edge (referencer : String) (target : Option String)
  | batch (pairs : List (String × Option String))

def Recording.pairs : Recording → List (String × Option String)
  | .edge referencer target => [(referencer, target)]
  | .batch pairs => pairs

def Recording.apply (g : ImportGraph) : Recording → ImportGraph
  | .edge referencer target => (g.record referencer target).1
  | .batch pairs => (g.recordAll pairs).1

def after (calls : List Recording) : ImportGraph := calls.foldl Recording.apply empty

/-- The edges that pairs stand for, each where it comes up first. -/
def distinct (pairs : List (String × Option String)) : List Edge :=
  (pairs.filterMap counted?).eraseDups

theorem Recording.apply_ofEdges (es : List Edge) (call : Recording) :
    call.apply (ofEdges es) = ofEdges ((call.pairs.filterMap counted?).foldl extend es) := by
  cases call with
  | edge referencer target =>
    simp only [Recording.apply, record_ofEdges, Recording.pairs, List.filterMap_cons]
    cases counted? (referencer, target) <;> rfl
  | batch pairs => simp only [Recording.apply, recordAll_ofEdges, Recording.pairs]

theorem foldl_apply_ofEdges (calls : List Recording) (es : List Edge) :
    calls.foldl Recording.apply (ofEdges es) =
      ofEdges (((calls.flatMap Recording.pairs).filterMap counted?).foldl extend es) := by
  induction calls generalizing es with
  | nil => rfl
  | cons call r ih =>
    simp only [List.foldl_cons, Recording.apply_ofEdges, ih, List.flatMap_cons,
      List.filterMap_append, List.foldl_append]

theorem recordAll_empty (pairs : List (String × Option String)) :
    (empty.recordAll pairs).1 = ofEdges (distinct pairs) := by
  have h := recordAll_ofEdges pairs []
  simp only [foldl_extend, List.removeAll_nil, List.nil_append] at h
  exact congrArg Prod.fst h

/-- Any calls leave the graph of the distinct edges among their pairs. -/
theorem after_eq (calls : List Recording) :
    after calls = ofEdges (distinct (calls.flatMap Recording.pairs)) := by
  have h := foldl_apply_ofEdges calls []
  simp only [foldl_extend, List.removeAll_nil, List.nil_append] at h
  exact h

theorem mem_distinct {pairs : List (String × Option String)} {referencer target : String} :
    (referencer, target) ∈ distinct pairs ↔
      (referencer, some target) ∈ pairs ∧ target ≠ "" ∧ target ≠ referencer := by
  simp only [distinct, List.mem_eraseDups, List.mem_filterMap, counted?_eq_some]
  constructor
  · intro h
    obtain ⟨_, hm, rfl, hc⟩ := h
    exact ⟨hm, hc⟩
  · intro h
    obtain ⟨hm, hc⟩ := h
    exact ⟨_, hm, rfl, hc⟩

def Recorded (calls : List Recording) (referencer target : String) : Prop :=
  (∃ call ∈ calls, (referencer, some target) ∈ call.pairs) ∧ target ≠ "" ∧ target ≠ referencer

instance (calls : List Recording) (referencer target : String) :
    Decidable (Recorded calls referencer target) :=
  inferInstanceAs (Decidable ((∃ call ∈ calls, _) ∧ _))

theorem mem_dependentsOf_after {calls : List Recording} {referencer target : String} :
    referencer ∈ (after calls).dependentsOf target ↔ Recorded calls referencer target := by
  rw [after_eq, dependentsOf_ofEdges, mem_dependentsIn, mem_distinct, List.mem_flatMap, Recorded]

theorem recorded_eq (calls : List Recording) :
    Recorded calls = fun referencer target => referencer ∈ (after calls).dependentsOf target := by
  funext referencer target
  exact propext mem_dependentsOf_after.symm

theorem nodup_dependentsIn {es : List Edge} (h : es.Nodup) (path : String) :
    (dependentsIn es path).Nodup := by
  refine (h.filter _).map_on fun e he f hf hef => ?_
  simp only [List.mem_filter, beq_iff_eq] at he hf
  exact Prod.ext hef (he.2.trans hf.2.symm)

theorem nodup_dependentsOf_after (calls : List Recording) (path : String) :
    ((after calls).dependentsOf path).Nodup := by
  rw [after_eq, dependentsOf_ofEdges]
  exact nodup_dependentsIn (nodup_eraseDups _) path

end ImportGraph

end ChangeImpact
