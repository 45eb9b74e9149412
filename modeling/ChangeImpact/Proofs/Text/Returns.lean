import ChangeImpact.Proofs.Data.Spans
import ChangeImpact.Proofs.Text.Strip

/-!
# Lines that end with a carriage return

`withReturns` puts a carriage return before each newline. What is read of a text without looking at
a newline on its own is read of it the same way afterwards.
-/

namespace ChangeImpact.Text

def withReturns (s : List Char) : List Char :=
  s.flatMap fun c => if c = '\n' then ['\r', '\n'] else [c]

variable {s t x y : List Char} {c e : Char} {p : Char → Bool}

@[simp] theorem withReturns_nil : withReturns [] = [] := rfl

@[simp] theorem withReturns_newline (s : List Char) :
    withReturns ('\n' :: s) = '\r' :: '\n' :: withReturns s := rfl

theorem withReturns_cons (hc : c ≠ '\n') (s : List Char) :
    withReturns (c :: s) = c :: withReturns s := by
  rw [withReturns, List.flatMap_cons, if_neg hc]
  rfl

@[simp] theorem withReturns_append (s t : List Char) :
    withReturns (s ++ t) = withReturns s ++ withReturns t := List.flatMap_append

theorem withReturns_of_notMem (h : '\n' ∉ s) : withReturns s = s := by
  induction s with
  | nil => rfl
  | cons c r ih =>
    rw [List.mem_cons, not_or] at h
    rw [withReturns_cons (Ne.symm h.1), ih h.2]

theorem length_withReturns (s : List Char) :
    (withReturns s).length = s.length + s.count '\n' := by
  induction s with
  | nil => rfl
  | cons c r ih =>
    by_cases hc : c = '\n'
    · subst hc
      rw [withReturns_newline, List.count_cons_self]
      simp only [List.length_cons, ih]
      omega
    · rw [withReturns_cons hc, List.count_cons_of_ne hc]
      simp only [List.length_cons, ih]
      omega

theorem withReturns_ne_nil (h : s ≠ []) : withReturns s ≠ [] := by
  intro hnil
  have hlength := length_withReturns s
  rw [hnil, List.length_nil] at hlength
  exact h (List.eq_nil_of_length_eq_zero (by omega))

theorem getLast?_withReturns (s : List Char) : (withReturns s).getLast? = s.getLast? := by
  rcases List.eq_nil_or_concat s with rfl | ⟨r, c, rfl⟩
  · rfl
  · rw [List.concat_eq_append, withReturns_append, List.getLast?_concat]
    by_cases hc : c = '\n'
    · subst hc
      exact List.getLast?_append_of_ne_nil _ (List.cons_ne_nil _ _)
    · rw [withReturns_cons hc, withReturns_nil, List.getLast?_concat]

theorem dropWhile_withReturns (hp : p '\r' = p '\n') (s : List Char) :
    (withReturns s).dropWhile p = withReturns (s.dropWhile p) := by
  induction s with
  | nil => rfl
  | cons c r ih =>
    by_cases hc : c = '\n'
    · subst hc
      cases hpass : p '\n' with
      | true => simp only [withReturns_newline, List.dropWhile_cons, hp, hpass, if_true, ih]
      | false =>
        simp only [withReturns_newline, List.dropWhile_cons, hp, hpass, Bool.false_eq_true,
          if_false]
    · rw [withReturns_cons hc, List.dropWhile_cons, List.dropWhile_cons]
      cases p c with
      | true => exact ih
      | false => exact (withReturns_cons hc r).symm

theorem takeWhile_withReturns (hreturn : p '\r' = false) (hnewline : p '\n' = false)
    (s : List Char) : (withReturns s).takeWhile p = s.takeWhile p := by
  induction s with
  | nil => rfl
  | cons c r ih =>
    by_cases hc : c = '\n'
    · subst hc
      simp only [withReturns_newline, List.takeWhile_cons, hreturn, hnewline, Bool.false_eq_true,
        if_false]
    · rw [withReturns_cons hc, List.takeWhile_cons, List.takeWhile_cons, ih]

theorem withReturns_eq_append_cons (hx : '\n' ∉ x) (hnewline : e ≠ '\n') (hreturn : e ≠ '\r') :
    withReturns s = x ++ e :: y ↔ ∃ t, s = x ++ e :: t ∧ y = withReturns t := by
  constructor
  · intro h
    induction x generalizing s with
    | nil =>
      cases s with
      | nil => cases h
      | cons c r =>
        by_cases hc : c = '\n'
        · subst hc
          exact absurd (List.cons.inj h).1.symm hreturn
        · rw [withReturns_cons hc] at h
          obtain ⟨rfl, rfl⟩ := List.cons.inj h
          exact ⟨r, rfl, rfl⟩
    | cons d x ih =>
      rw [List.mem_cons, not_or] at hx
      cases s with
      | nil => cases h
      | cons c r =>
        by_cases hc : c = '\n'
        · -- A return is followed by the newline, which would be on the line.
          subst hc
          have hrest := (List.cons.inj h).2
          cases x with
          | nil => exact absurd (List.cons.inj hrest).1.symm hnewline
          | cons f x => exact absurd ((List.cons.inj hrest).1 ▸ List.mem_cons_self) hx.2
        · rw [withReturns_cons hc] at h
          obtain ⟨rfl, hr⟩ := List.cons.inj h
          obtain ⟨t, rfl, hy⟩ := ih hx.2 hr
          exact ⟨t, rfl, hy⟩
  · intro h
    obtain ⟨t, rfl, rfl⟩ := h
    rw [withReturns_append, withReturns_of_notMem hx, withReturns_cons hnewline]

theorem after?_withReturns {w : List Char} (hnewline : '\n' ∉ w) (hreturn : '\r' ∉ w)
    (s : List Char) : after? w (withReturns s) = (after? w s).map withReturns := by
  induction w generalizing s with
  | nil => rfl
  | cons d w ih =>
    rw [List.mem_cons, not_or] at hnewline hreturn
    cases s with
    | nil => rfl
    | cons c r =>
      by_cases hc : c = '\n'
      · subst hc
        rw [withReturns_newline, after?_of_head (by simpa using hreturn.1),
          after?_of_head (by simpa using hnewline.1), Option.map_none]
      · rw [withReturns_cons hc, after?, after?, ih hnewline.2 hreturn.2]
        split <;> rfl

theorem cut?_withReturns {sep : Char} (hnewline : sep ≠ '\n') (hreturn : sep ≠ '\r')
    (s : List Char) : cut? sep (withReturns s) =
      (cut? sep s).map fun (a, b) => (withReturns a, withReturns b) := by
  induction s with
  | nil => rfl
  | cons c r ih =>
    by_cases hc : c = '\n'
    · subst hc
      have h1 : ('\r' == sep) = false := beq_eq_false_iff_ne.mpr hreturn.symm
      have h2 : ('\n' == sep) = false := beq_eq_false_iff_ne.mpr hnewline.symm
      simp only [withReturns_newline, cut?, h1, h2, Bool.false_eq_true, if_false, ih,
        Option.map_map, Function.comp_def]
    · rw [withReturns_cons hc, cut?, cut?, ih]
      split
      · rfl
      · simp only [Option.map_map, Function.comp_def, withReturns_cons hc]

end ChangeImpact.Text
