import Mathlib.Data.List.DropRight
import Mathlib.Data.List.TakeWhile

/-!
# Spans of a list and joined lists

Items that all pass a test, in front of a list whose first item does not pass it, are the span
that the test cuts off. Where not all items of a list pass it, there is a first that does not.
A list that is joined from others holds their items and those of the separator.
-/

namespace ChangeImpact

variable {α : Type} {p : α → Bool} {s t : List α}

theorem forall_head?_nil {P : α → Prop} : ∀ b ∈ ([] : List α).head?, P b := by simp

theorem forall_head?_cons {P : α → Prop} {a : α} : (∀ b ∈ (a :: s).head?, P b) ↔ P a := by
  simp

theorem dropWhile_append_of_head (hs : ∀ c ∈ s, p c = true) (ht : ∀ c ∈ t.head?, p c = false) :
    (s ++ t).dropWhile p = t := by
  rw [List.dropWhile_append_of_pos hs]
  cases t with
  | nil => rfl
  | cons c r => rw [List.dropWhile_cons, ht c rfl, if_neg Bool.false_ne_true]

theorem takeWhile_append_of_head (hs : ∀ c ∈ s, p c = true) (ht : ∀ c ∈ t.head?, p c = false) :
    (s ++ t).takeWhile p = s := by
  have hwhole := List.takeWhile_append_dropWhile (p := p) (l := s ++ t)
  rw [dropWhile_append_of_head hs ht] at hwhole
  exact List.append_cancel_right hwhole

/-- What is behind the span does not matter where its first item ends the span at the latest. -/
theorem takeWhile_append_of_stop (ht : ∀ c ∈ t.head?, p c = false) :
    (s ++ t).takeWhile p = s.takeWhile p := by
  induction s with
  | nil =>
    cases t with
    | nil => rfl
    | cons c r => rw [List.nil_append, List.takeWhile_cons, ht c rfl]; rfl
  | cons c s ih => rw [List.cons_append, List.takeWhile_cons, List.takeWhile_cons, ih]

theorem takeWhile_ne_append [BEq α] [LawfulBEq α] {a : α} (h : a ∉ s) (t : List α) :
    (s ++ t).takeWhile (· != a) = s ++ t.takeWhile (· != a) :=
  List.takeWhile_append_of_pos fun _ hc => bne_iff_ne.mpr (ne_of_mem_of_not_mem hc h)

theorem rtakeWhile_ne_append [BEq α] [LawfulBEq α] {a : α} (hs : s.getLast? = some a)
    (ht : a ∉ t) : (s ++ t).rtakeWhile (· != a) = t := by
  obtain ⟨r, rfl⟩ := List.getLast?_eq_some_iff.mp hs
  have hreverse : a ∉ t.reverse := by rwa [List.mem_reverse]
  rw [List.rtakeWhile, List.reverse_append, takeWhile_ne_append hreverse]
  simp

theorem exists_first_not (h : ¬ ∀ c ∈ s, p c = true) :
    ∃ u c v, s = u ++ c :: v ∧ (∀ d ∈ u, p d = true) ∧ p c = false := by
  induction s with
  | nil => exact absurd (List.forall_mem_nil _) h
  | cons c r ih =>
    by_cases hc : p c = true
    · obtain ⟨u, d, v, rfl, hu, hd⟩ := ih fun hr => h (List.forall_mem_cons.mpr ⟨hc, hr⟩)
      exact ⟨c :: u, d, v, rfl, List.forall_mem_cons.mpr ⟨hc, hu⟩, hd⟩
    · exact ⟨[], c, r, rfl, List.forall_mem_nil _, by simpa using hc⟩

theorem mem_intercalate {sep : List α} {l : List (List α)} {a : α}
    (h : a ∈ sep.intercalate l) : a ∈ sep ∨ ∃ x ∈ l, a ∈ x := by
  induction l with
  | nil => exact absurd h (by simp)
  | cons x r ih =>
    cases r with
    | nil => exact .inr ⟨x, List.mem_cons_self, by simpa using h⟩
    | cons y r =>
      rw [List.intercalate_cons_cons, List.mem_append, List.mem_append] at h
      rcases h with (h | h) | h
      · exact .inr ⟨x, List.mem_cons_self, h⟩
      · exact .inl h
      · refine (ih h).imp_right ?_
        rintro ⟨z, hz, ha⟩
        exact ⟨z, List.mem_cons_of_mem _ hz, ha⟩

end ChangeImpact
