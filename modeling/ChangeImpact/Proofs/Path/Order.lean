import ChangeImpact.Proofs.Path.Climbing
import Mathlib.Data.String.Basic

/-!
# The order of paths

A text between two texts with the same start has that start too. So what two paths have in common as
folders, every path between them has in common with them, as long as neither is a folder of the other.
-/

namespace ChangeImpact

theorem prefix_of_between {s front back m : List Char} (hfront : s ++ front ≤ m)
    (hback : m ≤ s ++ back) : s <+: m := by
  induction s generalizing m with
  | nil => exact List.nil_prefix
  | cons c r ih =>
    cases m with
    | nil => exact absurd hfront (not_le.mpr (by simp))
    | cons d m =>
      rw [List.cons_append, ← not_lt, List.cons_lt_cons_iff, not_or] at hfront hback
      obtain rfl : c = d := le_antisymm (not_lt.mp hfront.1) (not_lt.mp hback.1)
      rw [List.cons_prefix_cons]
      refine ⟨rfl, ih (not_lt.mp fun hlt => ?_) (not_lt.mp fun hlt => ?_)⟩
      · exact hfront.2 ⟨rfl, hlt⟩
      · exact hback.2 ⟨rfl, hlt⟩

theorem le_of_mem_getLast? {α : Type} [Preorder α] {l : List α} (h : l.Pairwise (· ≤ ·)) {a b : α}
    (ha : a ∈ l) (hb : b ∈ l.getLast?) : a ≤ b := by
  obtain ⟨init, rfl⟩ := List.getLast?_eq_some_iff.mp hb
  rcases List.mem_append.mp ha with ha | ha
  · exact (List.pairwise_append.mp h).2.2 a ha b (List.mem_singleton_self b)
  · rw [List.mem_singleton.mp ha]

namespace Path

open Text

theorem slashless_of_mem_fields {p name : String} (h : name ∈ fields '/' p) :
    '/' ∉ name.toList := by
  obtain ⟨f, hf, rfl⟩ := List.mem_map.mp h
  rw [String.toList_ofList]
  exact notMem_of_mem_splitOn hf

theorem fields_ne_nil (sep : Char) (p : String) : fields sep p ≠ [] := by
  rw [fields, splitOn, splitWhere_eq_splitOnP, ne_eq, List.map_eq_nil_iff]
  exact List.splitOnP_ne_nil _ _

theorem slashed_eq_intercalate {d : List String} (h : d ≠ []) :
    slashed d = ['/'].intercalate (d.map String.toList) ++ ['/'] := by
  induction d with
  | nil => exact absurd rfl h
  | cons name r ih =>
    cases r with
    | nil => simp [slashed]
    | cons next r =>
      rw [slashed_cons, ih (List.cons_ne_nil _ _)]
      simp [List.intercalate_cons_cons]

theorem slashed_fields (p : String) : slashed (fields '/' p) = p.toList ++ ['/'] := by
  rw [slashed_eq_intercalate (fields_ne_nil '/' p), intercalate_fields]

theorem fields_slashed_append {d : List String} (h : ∀ name ∈ d, '/' ∉ name.toList)
    (s : List Char) : fields '/' (String.ofList (slashed d ++ s)) =
      d ++ fields '/' (String.ofList s) := by
  induction d with
  | nil => rfl
  | cons name r ih =>
    obtain ⟨hname, hr⟩ := List.forall_mem_cons.mp h
    have hrest := ih hr
    simp only [fields, String.toList_ofList] at hrest ⊢
    rw [slashed_cons, List.append_assoc, List.cons_append, splitOn_append_cons hname,
      List.map_cons, hrest, String.ofList_toList, List.cons_append]

theorem prefix_fields_iff {d : List String} {p : String} (hd : ∀ name ∈ d, '/' ∉ name.toList) :
    d <+: fields '/' p ↔ d = fields '/' p ∨ slashed d <+: p.toList := by
  constructor
  · intro h
    obtain ⟨r, hr⟩ := h
    rcases eq_or_ne r [] with rfl | hne
    · exact .inl (by rw [← hr, List.append_nil])
    · right
      have hslashed : slashed d ++ slashed r = p.toList ++ ['/'] := by
        rw [← slashed_append, hr, slashed_fields]
      rw [slashed_eq_intercalate hne, ← List.append_assoc] at hslashed
      exact ⟨_, List.append_cancel_right hslashed⟩
  · intro h
    rcases h with rfl | ⟨s, hs⟩
    · exact List.prefix_rfl
    · have hfields := fields_slashed_append hd s
      rw [hs, String.ofList_toList] at hfields
      exact ⟨_, hfields.symm⟩

def IsFolderOf (p q : String) : Prop := p.toList ++ ['/'] <+: q.toList

instance (p q : String) : Decidable (IsFolderOf p q) := inferInstanceAs (Decidable (_ <+: _))

theorem prefix_fields_fields_iff {p q : String} :
    fields '/' p <+: fields '/' q ↔ p = q ∨ IsFolderOf p q := by
  rw [prefix_fields_iff fun _ => slashless_of_mem_fields, slashed_fields, IsFolderOf,
    (fields_injective '/').eq_iff]

theorem prefix_fields_of_between {p l q : String} {d : List String} (hpl : p ≤ l) (hlq : l ≤ q)
    (hpq : ¬ IsFolderOf p q) (hqp : ¬ IsFolderOf q p) (hp : d <+: fields '/' p)
    (hq : d <+: fields '/' q) : d <+: fields '/' l := by
  have hd : ∀ name ∈ d, '/' ∉ name.toList := fun name hname =>
    slashless_of_mem_fields (hp.subset hname)
  have hsame (heq : p = q) : d <+: fields '/' l := by
    rw [← heq] at hlq
    rwa [← le_antisymm hpl hlq]
  rcases (prefix_fields_iff hd).mp hp with rfl | ⟨s, hs⟩
  · exact hsame ((prefix_fields_fields_iff.mp hq).resolve_right hpq)
  · rcases (prefix_fields_iff hd).mp hq with rfl | ⟨t, ht⟩
    · exact hsame ((prefix_fields_fields_iff.mp hp).resolve_right hqp).symm
    · rw [String.le_iff_toList_le] at hpl hlq
      rw [← hs] at hpl
      rw [← ht] at hlq
      exact (prefix_fields_iff hd).mpr (.inr (prefix_of_between hpl hlq))

end Path

end ChangeImpact
