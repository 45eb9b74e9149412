import ChangeImpact.Imports.Python
import ChangeImpact.Proofs.Imports.Segments
import Mathlib.Data.List.Perm.Basic

/-!
# Finds of several names in order

A find of an import statement may have several names, all of them at its place. Sorting by place
is stable, so that the names of one find stay in their order, while the finds are put in the order
of their places.
-/

namespace ChangeImpact.Imports

section Stable

variable {α : Type} {l m : List (Nat × α)}

theorem mem_filter_place {f : Nat × α} : f ∈ l.filter (·.1 == f.1) ↔ f ∈ l := by
  rw [List.mem_filter, beq_self_eq_true, and_iff_left rfl]

/-- Two lists in the order of their places are the same if they are the same at every place. -/
theorem eq_of_filter_place (hl : l.Pairwise fun a b => a.1 ≤ b.1)
    (hm : m.Pairwise fun a b => a.1 ≤ b.1)
    (h : ∀ place, l.filter (·.1 == place) = m.filter (·.1 == place)) : l = m := by
  induction l generalizing m with
  | nil =>
    refine (List.eq_nil_iff_forall_not_mem.mpr fun f hf => ?_).symm
    have hnone := mem_filter_place.mpr hf
    rw [← h] at hnone
    exact List.not_mem_nil hnone
  | cons a r ih =>
    have hmem : ∀ f, f ∈ a :: r ↔ f ∈ m := fun f => by
      rw [← mem_filter_place, h, mem_filter_place]
    cases m with
    | nil => exact absurd ((hmem a).mp List.mem_cons_self) List.not_mem_nil
    | cons b t =>
      obtain ⟨ha, hr⟩ := List.pairwise_cons.mp hl
      obtain ⟨hb, ht⟩ := List.pairwise_cons.mp hm
      -- Both heads stand at the least place of all.
      have hle : a.1 ≤ b.1 := by
        rcases List.mem_cons.mp ((hmem b).mpr List.mem_cons_self) with rfl | hbr
        · exact Nat.le_refl _
        · exact ha b hbr
      have hge : b.1 ≤ a.1 := by
        rcases List.mem_cons.mp ((hmem a).mp List.mem_cons_self) with rfl | hat
        · exact Nat.le_refl _
        · exact hb a hat
      have hfirst := h a.1
      simp only [List.filter_cons, Nat.le_antisymm hge hle, beq_self_eq_true, if_true] at hfirst
      obtain ⟨rfl, -⟩ := List.cons.inj hfirst
      refine congrArg _ (ih hr ht fun place => ?_)
      have hall := h place
      rw [List.filter_cons, List.filter_cons] at hall
      split at hall
      · exact (List.cons.inj hall).2
      · exact hall

variable (l) in
theorem filter_mergeSort_place (place : Nat) :
    (l.mergeSort fun a b => a.1 ≤ b.1).filter (·.1 == place) = l.filter (·.1 == place) := by
  have hsame : ∀ f ∈ l.filter (·.1 == place), f.1 = place := fun f hf =>
    beq_iff_eq.mp (List.mem_filter.mp hf).2
  have hsub : (l.filter (·.1 == place)).Sublist (l.mergeSort fun a b => a.1 ≤ b.1) := by
    refine List.sublist_mergeSort ?_ ?_ ?_ List.filter_sublist
    · intro a b c hab hbc
      exact decide_eq_true (Nat.le_trans (of_decide_eq_true hab) (of_decide_eq_true hbc))
    · intro a b
      rw [← Bool.decide_or]
      exact decide_eq_true (Nat.le_total _ _)
    · refine List.pairwise_of_forall_mem_list fun f hf g hg => decide_eq_true ?_
      exact Nat.le_of_eq ((hsame f hf).trans (hsame g hg).symm)
  have hfiltered := hsub.filter (·.1 == place)
  simp only [List.filter_filter, Bool.and_self] at hfiltered
  exact (hfiltered.eq_of_length
    ((List.mergeSort_perm l _).filter _).length_eq.symm).symm

end Stable

namespace Python

variable {found located : List (Nat × List (List Char))}

theorem each_append (found found' : List (Nat × List (List Char))) :
    each (found ++ found') = each found ++ each found' := List.flatMap_append

theorem map_each (found : List (Nat × List (List Char))) :
    (each found).map (·.2) = found.flatMap (·.2) := by
  simp [each, List.map_flatMap, Function.comp_def]

theorem filter_each (place : Nat) (found : List (Nat × List (List Char))) :
    (each found).filter (·.1 == place) = each (found.filter (·.1 == place)) := by
  induction found with
  | nil => rfl
  | cons f r ih =>
    rw [each, List.flatMap_cons, List.filter_append, ← each, ih, List.filter_cons]
    by_cases h : f.1 = place
    · simp [h, each, List.filter_map, Function.comp_def]
    · simp [h, each, List.filter_map, Function.comp_def]

theorem pairwise_each (h : located.Pairwise fun a b => a.1 < b.1) :
    (each located).Pairwise fun a b => a.1 ≤ b.1 := by
  induction located with
  | nil => exact .nil
  | cons f r ih =>
    obtain ⟨hf, hr⟩ := List.pairwise_cons.mp h
    rw [each, List.flatMap_cons]
    refine List.pairwise_append.mpr ⟨List.pairwise_map.mpr ?_, ih hr, fun a ha b hb => ?_⟩
    · exact List.pairwise_of_forall fun _ _ => Nat.le_refl _
    · obtain ⟨_, -, rfl⟩ := List.mem_map.mp ha
      obtain ⟨g, hg, hb⟩ := List.mem_flatMap.mp hb
      obtain ⟨_, -, rfl⟩ := List.mem_map.mp hb
      exact Nat.le_of_lt (hf g hg)

/-- Finds at different places are put in the order of their places. -/
theorem inOrder_each (h : found.Perm located) (hplaces : located.Pairwise fun a b => a.1 < b.1) :
    inOrder (each found) = located.flatMap (·.2) := by
  have hsame (place : Nat) :
      found.filter (·.1 == place) = located.filter (·.1 == place) := by
    have hperm := h.filter (·.1 == place)
    have hapart := hplaces.filter (·.1 == place)
    have hplace : ∀ f ∈ located.filter (·.1 == place), f.1 = place := fun f hf =>
      beq_iff_eq.mp (List.mem_filter.mp hf).2
    -- There is at most one find at the place.
    rcases hfilter : located.filter (·.1 == place) with - | ⟨f, - | ⟨g, r⟩⟩
    · rw [hfilter] at hperm
      exact hperm.eq_nil.trans hfilter.symm
    · rw [hfilter] at hperm
      exact (List.perm_singleton.mp hperm).trans hfilter.symm
    · rw [hfilter] at hapart hplace
      have hlt := List.rel_of_pairwise_cons hapart List.mem_cons_self
      rw [hplace f (by simp), hplace g (by simp)] at hlt
      exact absurd hlt (Nat.lt_irrefl _)
  have hsorted : ((each found).mergeSort fun a b => a.1 ≤ b.1) = each located := by
    refine eq_of_filter_place (pairwise_mergeSort_place _) (pairwise_each hplaces) fun place => ?_
    rw [filter_mergeSort_place, filter_each, filter_each, hsame]
  rw [inOrder, hsorted, map_each]

end Python

end ChangeImpact.Imports
