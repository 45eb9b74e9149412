import ChangeImpact.Proofs.Data.Spans
import ChangeImpact.Text.Split
import Mathlib.Data.List.DropRight
import Mathlib.Data.List.Infix

/-!
# Text without its margins

Cutting off both margins of a text does not depend on which is cut off first, and it leaves what
stands on either side of a character that is no blank as if it were alone there. A text is found in
another where it is a stretch of it, behind a start or up to a separator.
-/

namespace ChangeImpact.Text

variable {p : Char → Bool}

theorem dropWhile_append_cons {c : Char} (hc : p c = false) (s t : List Char) :
    (s ++ c :: t).dropWhile p = s.dropWhile p ++ c :: t := by
  induction s with
  | nil => rw [List.nil_append, List.dropWhile_cons, hc, if_neg Bool.false_ne_true]; rfl
  | cons d r ih =>
    rw [List.cons_append, List.dropWhile_cons, List.dropWhile_cons, ih]
    split <;> rfl

theorem trimRight_append_cons {c : Char} (hc : p c = false) (s t : List Char) :
    trimRight p (s ++ c :: t) = s ++ c :: trimRight p t := by
  rw [trimRight, List.reverse_append, List.reverse_cons, List.append_assoc, List.singleton_append,
    dropWhile_append_cons hc]
  simp [trimRight]

theorem trimRight_append {t : List Char} (ht : ∀ c ∈ t, p c = true) (s : List Char) :
    trimRight p (s ++ t) = trimRight p s := by
  rw [trimRight, List.reverse_append, List.dropWhile_append_of_pos (by simpa using ht), trimRight]

theorem trim_append {t : List Char} (ht : ∀ c ∈ t, p c = true) (s : List Char) :
    trim p (s ++ t) = trim p s := by
  rw [trim, trim, List.dropWhile_append]
  split
  next hs =>
    rw [List.isEmpty_iff.mp hs, List.dropWhile_eq_nil_iff.mpr ht]
  next => exact trimRight_append ht _

theorem trim_cons {c : Char} (hc : p c = true) (s : List Char) : trim p (c :: s) = trim p s := by
  rw [trim, List.dropWhile_cons_of_pos hc, trim]

theorem exists_trimRight (p : Char → Bool) (s : List Char) :
    ∃ t, (∀ c ∈ t, p c = true) ∧ trimRight p s ++ t = s := by
  refine ⟨(s.reverse.takeWhile p).reverse, ?_, ?_⟩
  · intro c hc
    exact List.mem_takeWhile_imp (List.mem_reverse.mp hc)
  · rw [trimRight, ← List.reverse_append, List.takeWhile_append_dropWhile, List.reverse_reverse]

theorem trim_trimRight (s : List Char) : trim p (trimRight p s) = trim p s := by
  obtain ⟨t, ht, hs⟩ := exists_trimRight p s
  conv_rhs => rw [← hs, trim_append ht]

theorem trim_dropWhile (s : List Char) : trim p (s.dropWhile p) = trim p s := by
  rw [trim, trim, List.dropWhile_idempotent]

theorem exists_trim (p : Char → Bool) (s : List Char) : ∃ front back,
    (∀ c ∈ front, p c = true) ∧ (∀ c ∈ back, p c = true) ∧ front ++ (trim p s ++ back) = s := by
  obtain ⟨back, hback, hs⟩ := exists_trimRight p (s.dropWhile p)
  exact ⟨s.takeWhile p, back, fun _ hc => List.mem_takeWhile_imp hc, hback,
    (congrArg _ hs).trans List.takeWhile_append_dropWhile⟩

theorem dropWhile_trim (s : List Char) : (trim p s).dropWhile p = trim p s := by
  rw [trim]
  cases hs : s.dropWhile p with
  | nil => rfl
  | cons c r =>
    have hc : p c = false := by
      simpa [hs] using List.head?_dropWhile_not p s
    have hcons : trimRight p (c :: r) = c :: trimRight p r := trimRight_append_cons hc [] r
    rw [hcons, List.dropWhile_cons, hc, if_neg Bool.false_ne_true]

theorem trim_of_all {s : List Char} (h : ∀ c ∈ s, p c = true) : trim p s = [] := by
  rw [trim, List.dropWhile_eq_nil_iff.mpr h]
  rfl

theorem trim_append_cons {c : Char} (hc : p c = false) (s t : List Char) :
    trim p (s ++ c :: t) = s.dropWhile p ++ c :: trimRight p t := by
  rw [trim, dropWhile_append_cons hc, trimRight_append_cons hc]

theorem occursIn_iff {needle s : List Char} : occursIn needle s = true ↔ needle <:+: s := by
  induction s with
  | nil => simp [occursIn]
  | cons c r ih => rw [occursIn, Bool.or_eq_true, ih, List.isPrefixOf_iff_prefix, List.infix_cons_iff]

theorem after?_append (start s : List Char) : after? start (start ++ s) = some s := by
  induction start with
  | nil => rfl
  | cons c r ih => rw [List.cons_append, after?, beq_self_eq_true, if_pos rfl, ih]

theorem after?_eq_some {start s t : List Char} : after? start s = some t ↔ s = start ++ t := by
  induction start generalizing s with
  | nil => rw [after?, Option.some.injEq, List.nil_append]
  | cons p ps ih =>
    cases s with
    | nil => simp [after?]
    | cons c r =>
      rw [after?, List.cons_append, List.cons.injEq, ← ih]
      by_cases hc : p = c
      · simp [hc]
      · simp [hc, Ne.symm hc]

theorem after?_of_head {d : Char} {s : List Char} (h : ∀ c ∈ s.head?, c ≠ d) (start : List Char) :
    after? (d :: start) s = none := by
  cases s with
  | nil => rfl
  | cons c r => simp [after?, (h c rfl).symm]

theorem after?_trimRight {c : Char} (hc : p c = false) (start s : List Char) :
    after? (start ++ [c]) (trimRight p s) = (after? (start ++ [c]) s).map (trimRight p) := by
  cases h : after? (start ++ [c]) s with
  | some r =>
    rw [after?_eq_some, List.append_assoc] at h
    have hs : trimRight p s = start ++ [c] ++ trimRight p r := by
      rw [h, List.append_assoc]
      exact trimRight_append_cons hc start r
    rw [hs, after?_append, Option.map_some]
  | none =>
    rw [Option.map_none, Option.eq_none_iff_forall_ne_some]
    intro r hr
    obtain ⟨back, -, hs⟩ := exists_trimRight p s
    rw [after?_eq_some.mp hr, List.append_assoc] at hs
    rw [← hs, after?_append] at h
    cases h

theorem cut?_append_cons {sep : Char} {s : List Char} (h : sep ∉ s) (t : List Char) :
    cut? sep (s ++ sep :: t) = some (s, t) := by
  induction s with
  | nil => simp [cut?]
  | cons c r ih =>
    rw [List.mem_cons, not_or] at h
    have hne : (c == sep) = false := beq_eq_false_iff_ne.mpr (Ne.symm h.1)
    rw [List.cons_append, cut?, hne, if_neg Bool.false_ne_true, ih h.2]
    rfl

theorem exists_cut? (sep : Char) (s : List Char) : ∃ left, s.takeWhile (· != sep) ++ sep :: left =
    s ++ [sep] ∧ ∀ t, cut? sep (s ++ sep :: t) = some (s.takeWhile (· != sep), left ++ t) := by
  by_cases h : sep ∈ s
  · obtain ⟨u, v, rfl, hu⟩ := List.eq_append_cons_of_mem h
    refine ⟨v ++ [sep], by simp [takeWhile_ne_append hu], fun t => ?_⟩
    rw [List.append_assoc, List.cons_append, cut?_append_cons hu]
    simp [takeWhile_ne_append hu]
  · have hs : s.takeWhile (· != sep) = s := by
      have hall := takeWhile_ne_append h []
      rwa [List.append_nil, List.takeWhile_nil, List.append_nil] at hall
    exact ⟨[], by rw [hs], fun t => by rw [cut?_append_cons h, hs]; rfl⟩

end ChangeImpact.Text
