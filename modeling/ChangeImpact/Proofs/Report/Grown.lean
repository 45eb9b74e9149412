import ChangeImpact.Proofs.Data.Entries
import ChangeImpact.Proofs.Path.Order
import ChangeImpact.Proofs.Source.Listing
import ChangeImpact.Report.FileTree
import Mathlib.Data.List.Infix
import Mathlib.Data.List.Nodup

/-!
# How a tree of paths grows

The leaves of a tree are the ways down to what has nothing below it. A path that is put into a tree
becomes its last leaf, if it is none yet, as long as it has nothing in common with an earlier leaf
that it has not in common with the last one, and neither leads through a leaf nor ends above one.
-/

namespace ChangeImpact.Report

namespace PathTree

mutual

def leaves : PathTree → List (List String)
  | .node es => if es.isEmpty then [[]] else leavesBelow es

def leavesBelow : List (String × PathTree) → List (List String)
  | [] => []
  | (name, t) :: r => (leaves t).map (name :: ·) ++ leavesBelow r

end

inductive Named (allowed : String → Prop) : PathTree → Prop where
  | node {es : List (String × PathTree)} (nodup : (es.map (·.1)).Nodup)
      (names : ∀ e ∈ es, allowed e.1) (below : ∀ e ∈ es, Named allowed e.2) :
      Named allowed (.node es)

section Entries

variable {es init : List (String × PathTree)} {name : String} {t u : PathTree}

theorem leavesBelow_append (es es' : List (String × PathTree)) :
    leavesBelow (es ++ es') = leavesBelow es ++ leavesBelow es' := by
  induction es with
  | nil => rfl
  | cons e r ih => rw [List.cons_append, leavesBelow, leavesBelow, ih, List.append_assoc]

theorem leavesBelow_concat (es : List (String × PathTree)) (name : String) (t : PathTree) :
    leavesBelow (es ++ [(name, t)]) = leavesBelow es ++ (leaves t).map (name :: ·) := by
  rw [leavesBelow_append, leavesBelow, leavesBelow, List.append_nil]

theorem leaves_ne_nil : (t : PathTree) → leaves t ≠ []
  | .node [] => List.cons_ne_nil _ _
  | .node ((name, t) :: r) => by
    have hbelow : leaves t ≠ [] := leaves_ne_nil t
    simp [leaves, leavesBelow, hbelow]

theorem mem_leavesBelow {q : List String} :
    q ∈ leavesBelow es ↔ ∃ e ∈ es, q ∈ (leaves e.2).map (e.1 :: ·) := by
  induction es with
  | nil => simp [leavesBelow]
  | cons e r ih => rw [leavesBelow, List.mem_append, ih, List.exists_mem_cons_iff]

theorem cons_notMem_leavesBelow {r : List String} (h : name ∉ es.map (·.1)) :
    name :: r ∉ leavesBelow es := by
  intro hmem
  obtain ⟨e, he, hr⟩ := mem_leavesBelow.mp hmem
  obtain ⟨q, -, heq⟩ := List.mem_map.mp hr
  exact h (List.mem_map.mpr ⟨e, he, (List.cons.inj heq).1⟩)

theorem setEntry_of_notMem (h : name ∉ es.map (·.1)) :
    setEntry name t es = es ++ [(name, t)] := by
  induction es with
  | nil => rfl
  | cons e r ih =>
    rw [List.map_cons, List.mem_cons, not_or] at h
    have hne : (e.1 == name) = false := beq_eq_false_iff_ne.mpr (Ne.symm h.1)
    rw [setEntry, hne, if_neg Bool.false_ne_true, ih h.2, List.cons_append]

theorem setEntry_concat (h : name ∉ init.map (·.1)) :
    setEntry name t (init ++ [(name, u)]) = init ++ [(name, t)] := by
  induction init with
  | nil => simp [setEntry]
  | cons e r ih =>
    rw [List.map_cons, List.mem_cons, not_or] at h
    have hne : (e.1 == name) = false := beq_eq_false_iff_ne.mpr (Ne.symm h.1)
    rw [List.cons_append, setEntry, hne, if_neg Bool.false_ne_true, ih h.2, List.cons_append]

theorem lookup_of_notMem (h : name ∉ es.map (·.1)) : es.lookup name = none := by
  rw [List.lookup_eq_none_iff]
  intro e he
  simpa using fun heq => h (List.mem_map.mpr ⟨e, he, heq.symm⟩)

theorem lookup_concat (h : name ∉ init.map (·.1)) :
    (init ++ [(name, u)]).lookup name = some u := by
  rw [List.lookup_append, lookup_of_notMem h, Option.none_or, List.lookup_cons_self]

end Entries

theorem leaves_insert_empty (p : List String) : leaves (insert p (.node [])) = [p] := by
  induction p with
  | nil => rfl
  | cons name r ih =>
    have hsingle : insert (name :: r) (.node []) = .node [(name, insert r (.node []))] := rfl
    rw [hsingle, leaves, leavesBelow, leavesBelow, ih]
    rfl

theorem mem_setEntry {es : List (String × PathTree)} {name : String} {t : PathTree}
    {e : String × PathTree} (h : e ∈ setEntry name t es) : e ∈ es ∨ e = (name, t) := by
  induction es with
  | nil => exact .inr (List.mem_singleton.mp h)
  | cons f r ih =>
    rw [setEntry] at h
    split at h
    next hf =>
      rcases List.mem_cons.mp h with rfl | h
      · exact .inr (by rw [beq_iff_eq.mp hf])
      · exact .inl (List.mem_cons_of_mem f h)
    next =>
      rcases List.mem_cons.mp h with rfl | h
      · exact .inl List.mem_cons_self
      · exact (ih h).imp_left (List.mem_cons_of_mem f)

theorem nodup_setEntry {es : List (String × PathTree)} {name : String} {t : PathTree}
    (h : (es.map (·.1)).Nodup) : ((setEntry name t es).map (·.1)).Nodup := by
  induction es with
  | nil => exact List.nodup_singleton name
  | cons f r ih =>
    rw [List.map_cons, List.nodup_cons] at h
    rw [setEntry]
    split
    · rw [List.map_cons, List.nodup_cons]
      exact h
    next hf =>
      rw [List.map_cons, List.nodup_cons]
      refine ⟨fun hmem => ?_, ih h.2⟩
      obtain ⟨e, he, hname⟩ := List.mem_map.mp hmem
      rcases mem_setEntry he with he | rfl
      · exact h.1 (List.mem_map.mpr ⟨e, he, hname⟩)
      · exact hf (beq_iff_eq.mpr hname.symm)

section Names

variable {allowed : String → Prop} {t : PathTree} {p : List String}

theorem named_empty : Named allowed (.node []) :=
  .node List.nodup_nil (List.forall_mem_nil _) (List.forall_mem_nil _)

theorem Named.insert (h : Named allowed t) (hp : ∀ name ∈ p, allowed name) :
    Named allowed (insert p t) := by
  induction p generalizing t with
  | nil => exact h
  | cons name r ih =>
    cases h with | @node es hnodup hnames hbelow =>
    obtain ⟨hname, hr⟩ := List.forall_mem_cons.mp hp
    have hchild : Named allowed ((es.lookup name).getD (.node [])) := by
      cases hfound : es.lookup name with
      | none => exact named_empty
      | some u => exact hbelow _ (mem_of_lookup hfound)
    refine .node (nodup_setEntry hnodup) (fun e he => ?_) fun e he => ?_
    · rcases mem_setEntry he with he | rfl
      · exact hnames e he
      · exact hname
    · rcases mem_setEntry he with he | rfl
      · exact hbelow e he
      · exact ih hchild hr

end Names

structure Continues (p : List String) (found : List (List String)) : Prop where
  together : ∀ d, d ≠ [] → d <+: p → (∃ q ∈ found, d <+: q) → ∀ l ∈ found.getLast?, d <+: l
  apart : ∀ q ∈ found, q <+: p ∨ p <+: q → q = p

theorem Continues.below {name : String} {r : List String} {before inside : List (List String)}
    (h : Continues (name :: r) (before ++ inside.map (name :: ·))) : Continues r inside := by
  have hmem : ∀ q ∈ inside, name :: q ∈ before ++ inside.map (name :: ·) := fun q hq =>
    List.mem_append_right _ (List.mem_map_of_mem hq)
  constructor
  · intro d hne hd hfound l hl
    obtain ⟨q, hq, hdq⟩ := hfound
    have hlast : name :: l ∈ (before ++ inside.map (name :: ·)).getLast? := by
      rw [List.getLast?_append, List.getLast?_map, Option.mem_def.mp hl]
      rfl
    have htogether := h.together (name :: d) (List.cons_ne_nil _ _)
      (List.cons_prefix_cons.mpr ⟨rfl, hd⟩)
      ⟨name :: q, hmem q hq, List.cons_prefix_cons.mpr ⟨rfl, hdq⟩⟩ _ hlast
    exact (List.cons_prefix_cons.mp htogether).2
  · intro q hq hcomparable
    have heq := h.apart _ (hmem q hq)
      (hcomparable.imp (fun hp => List.cons_prefix_cons.mpr ⟨rfl, hp⟩)
        fun hp => List.cons_prefix_cons.mpr ⟨rfl, hp⟩)
    exact (List.cons.inj heq).2

theorem Continues.name_cases {es : List (String × PathTree)} {name : String} {r : List String}
    (h : Continues (name :: r) (leavesBelow es)) :
    name ∉ es.map (·.1) ∨ ∃ init t, es = init ++ [(name, t)] := by
  by_cases hname : name ∈ es.map (·.1)
  · right
    obtain ⟨e, he, rfl⟩ := List.mem_map.mp hname
    obtain ⟨q, hq⟩ := List.exists_mem_of_ne_nil _ (leaves_ne_nil e.2)
    have hfound : e.1 :: q ∈ leavesBelow es :=
      mem_leavesBelow.mpr ⟨e, he, List.mem_map_of_mem hq⟩
    rcases List.eq_nil_or_concat' es with rfl | ⟨init, ⟨last, t⟩, rfl⟩
    · cases he
    · have hlast : last :: (leaves t).getLast (leaves_ne_nil t) ∈
          (leavesBelow (init ++ [(last, t)])).getLast? := by
        rw [leavesBelow_concat, List.getLast?_append, List.getLast?_map,
          List.getLast?_eq_some_getLast (leaves_ne_nil t)]
        rfl
      have hcommon := h.together [e.1] (List.cons_ne_nil _ _)
        (List.cons_prefix_cons.mpr ⟨rfl, List.nil_prefix⟩)
        ⟨e.1 :: q, hfound, List.cons_prefix_cons.mpr ⟨rfl, List.nil_prefix⟩⟩ _ hlast
      exact ⟨init, t, by rw [(List.cons_prefix_cons.mp hcommon).1]⟩
  · exact .inl hname

theorem leaves_of_isEmpty {t : PathTree} (h : t.entries.isEmpty) : leaves t = [[]] := by
  obtain ⟨es⟩ := t
  rw [entries] at h
  rw [leaves, if_pos h]

theorem leaves_of_not_isEmpty {t : PathTree} (h : ¬ t.entries.isEmpty) :
    leaves t = leavesBelow t.entries := by
  obtain ⟨es⟩ := t
  rw [entries] at h
  rw [leaves, if_neg h, entries]

theorem insert_not_isEmpty (name : String) (r : List String) (t : PathTree) :
    ¬ (insert (name :: r) t).entries.isEmpty := by
  rw [insert, entries]
  cases t.entries with
  | nil => exact Bool.false_ne_true
  | cons e es =>
    rw [setEntry]
    split <;> exact Bool.false_ne_true

theorem leaves_insert_of_leavesBelow {r : List String} {u : PathTree} (h : Continues r (leaves u))
    (hbelow : r ≠ [] → Continues r (leavesBelow u.entries) →
      leavesBelow (insert r u).entries = if r ∈ leavesBelow u.entries then leavesBelow u.entries
        else leavesBelow u.entries ++ [r]) :
    leaves (insert r u) = if r ∈ leaves u then leaves u else leaves u ++ [r] := by
  cases r with
  | nil =>
    obtain ⟨q, hq⟩ := List.exists_mem_of_ne_nil _ (leaves_ne_nil u)
    rw [h.apart q hq (.inr List.nil_prefix)] at hq
    rw [if_pos hq, insert]
  | cons name r =>
    have hfolder : ¬ u.entries.isEmpty := by
      intro hempty
      rw [leaves_of_isEmpty hempty] at h
      have hleaf := h.apart [] (List.mem_singleton_self []) (.inl List.nil_prefix)
      exact List.cons_ne_nil _ _ hleaf.symm
    rw [leaves_of_not_isEmpty hfolder] at h ⊢
    rw [leaves_of_not_isEmpty (insert_not_isEmpty name r u), hbelow (List.cons_ne_nil _ _) h]

theorem leavesBelow_insert {allowed : String → Prop} {p : List String} {t : PathTree}
    (hnamed : Named allowed t) (hne : p ≠ []) (h : Continues p (leavesBelow t.entries)) :
    leavesBelow (insert p t).entries =
      if p ∈ leavesBelow t.entries then leavesBelow t.entries
      else leavesBelow t.entries ++ [p] := by
  induction p generalizing t with
  | nil => exact absurd rfl hne
  | cons name r ih =>
    cases hnamed with | @node es hnodup _ hbelow =>
    rw [entries] at h
    rw [insert, entries, entries]
    rcases h.name_cases with hnew | ⟨init, u, rfl⟩
    · rw [lookup_of_notMem hnew, Option.getD_none, setEntry_of_notMem hnew,
        if_neg (cons_notMem_leavesBelow hnew), leavesBelow_concat, leaves_insert_empty]
      rfl
    · -- The name is that of the last entry: the leaves before it stay, and those below it grow.
      have hnew : name ∉ init.map (·.1) := by
        rw [List.map_append, List.map_singleton, List.nodup_append] at hnodup
        exact fun hmem => hnodup.2.2 name hmem name (List.mem_singleton_self name) rfl
      have hu : Named allowed u := hbelow (name, u) List.mem_concat_self
      rw [leavesBelow_concat] at h
      have hchild : leaves (insert r u) =
          if r ∈ leaves u then leaves u else leaves u ++ [r] :=
        leaves_insert_of_leavesBelow h.below fun hr => ih hu hr
      have hmem : name :: r ∈ leavesBelow init ++ (leaves u).map (name :: ·) ↔ r ∈ leaves u := by
        simp [cons_notMem_leavesBelow hnew]
      rw [lookup_concat hnew, Option.getD_some, setEntry_concat hnew, leavesBelow_concat,
        leavesBelow_concat, hchild]
      simp only [hmem]
      split
      · rfl
      · rw [List.map_append, List.append_assoc]
        rfl

end PathTree

open PathTree Text

variable {paths : List String}

def grow (t : PathTree) (path : String) : PathTree := t.insert (fields '/' path)

/-- In an increasing list of paths none of which is a folder of another, each path goes on behind
those before it. -/
theorem continues_of_pairwise {init : List String} {p : String}
    (hsorted : (init ++ [p]).Pairwise (· ≤ ·))
    (hapart : ∀ q ∈ init ++ [p], ∀ r ∈ init ++ [p], ¬ Path.IsFolderOf q r) :
    Continues (fields '/' p) (init.eraseDups.map (fields '/')) := by
  rw [List.pairwise_append] at hsorted
  obtain ⟨hinit, -, hlast⟩ := hsorted
  have hmem : ∀ q ∈ init.eraseDups, q ∈ init ++ [p] := fun q hq =>
    List.mem_append_left _ (List.mem_eraseDups.mp hq)
  have hp : p ∈ init ++ [p] := List.mem_concat_self
  constructor
  · intro d _ hd hfound l hl
    obtain ⟨f, hf, hdf⟩ := hfound
    obtain ⟨q, hq, rfl⟩ := List.mem_map.mp hf
    rw [List.getLast?_map, Option.mem_def, Option.map_eq_some_iff] at hl
    obtain ⟨m, hm, rfl⟩ := hl
    have hmp : m ≤ p :=
      hlast m (List.mem_eraseDups.mp (List.mem_of_getLast? hm)) p (List.mem_singleton_self p)
    have hqm : q ≤ m := le_of_mem_getLast? (hinit.sublist (eraseDups_sublist init)) hq hm
    exact Path.prefix_fields_of_between hqm hmp (hapart q (hmem q hq) p hp)
      (hapart p hp q (hmem q hq)) hdf hd
  · intro f hf hcomparable
    obtain ⟨q, hq, rfl⟩ := List.mem_map.mp hf
    rw [Path.prefix_fields_fields_iff, Path.prefix_fields_fields_iff] at hcomparable
    rcases hcomparable with (rfl | hqp) | (rfl | hpq)
    · rfl
    · exact absurd hqp (hapart q (hmem q hq) p hp)
    · rfl
    · exact absurd hpq (hapart p hp q (hmem q hq))

theorem named_foldl_grow {allowed : String → Prop}
    (h : ∀ p ∈ paths, ∀ name ∈ fields '/' p, allowed name) {t : PathTree} (ht : Named allowed t) :
    Named allowed (paths.foldl grow t) := by
  induction paths generalizing t with
  | nil => exact ht
  | cons p r ih =>
    obtain ⟨hp, hr⟩ := List.forall_mem_cons.mp h
    exact ih hr (ht.insert hp)

theorem leavesBelow_foldl_grow (hsorted : paths.Pairwise (· ≤ ·))
    (hapart : ∀ q ∈ paths, ∀ r ∈ paths, ¬ Path.IsFolderOf q r) :
    leavesBelow (paths.foldl grow (.node [])).entries =
      paths.eraseDups.map (fields '/') := by
  -- From the back, since each path goes on behind all those before it.
  induction paths using List.reverseRecOn with
  | nil => rfl
  | append_singleton init p ih =>
    have hinit := ih (List.pairwise_append.mp hsorted).1 fun q hq r hr =>
      hapart q (List.mem_append_left _ hq) r (List.mem_append_left _ hr)
    have hnamed : Named (fun _ => True) (init.foldl grow (.node [])) :=
      named_foldl_grow (fun _ _ _ _ => trivial) named_empty
    have hcontinues := continues_of_pairwise hsorted hapart
    rw [← hinit] at hcontinues
    have hmem : fields '/' p ∈ init.eraseDups.map (fields '/') ↔ p ∈ init := by
      rw [List.mem_map_of_injective (fields_injective '/'), List.mem_eraseDups]
    rw [List.foldl_append, List.foldl_cons, List.foldl_nil, grow,
      leavesBelow_insert hnamed (Path.fields_ne_nil '/' p) hcontinues, hinit,
      List.eraseDups_append, List.map_append]
    simp only [hmem]
    split
    next hp => simp [List.removeAll, hp]
    next hp => simp [List.removeAll, hp, List.eraseDups_cons]

/-- The tree of some paths has them as its leaves, in their order. -/
theorem leavesBelow_pathTree (hapart : ∀ p ∈ paths, ∀ q ∈ paths, ¬ Path.IsFolderOf p q) :
    leavesBelow (pathTree paths).entries = (Source.sorted paths).eraseDups.map (fields '/') :=
  leavesBelow_foldl_grow (Source.pairwise_sorted paths) fun p hp q hq =>
    hapart p (Source.mem_sorted.mp hp) q (Source.mem_sorted.mp hq)

theorem named_pathTree {allowed : String → Prop}
    (h : ∀ p ∈ paths, ∀ name ∈ fields '/' p, allowed name) : Named allowed (pathTree paths) :=
  named_foldl_grow (fun p hp => h p (Source.mem_sorted.mp hp)) named_empty

end ChangeImpact.Report
