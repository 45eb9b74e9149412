import ChangeImpact.Text.Split
import Mathlib.Data.List.Basic

/-!
# Written lines and the lines that are read

A line that is written with a line feed behind it is read as one line only if no other line end
stands in it. `first` is what is read of it as the line that it is, and `strays` are the further
lines into which it is cut.
-/

namespace ChangeImpact.Text

theorem lines_cons {c : Char} {r : List Char} (h : c ≠ '\r' ∨ r.head? ≠ some '\n') :
    lines (c :: r) = if isLineEnd c then [] :: lines r
      else match lines r with
        | [] => [[c]]
        | l :: ls => (c :: l) :: ls := by
  rw [lines.eq_def]
  split
  next heq => cases heq
  next heq =>
    obtain ⟨rfl, rfl⟩ := List.cons.inj heq
    simp at h
  next heq =>
    obtain ⟨rfl, rfl⟩ := List.cons.inj heq
    rfl

def pieces (s : List Char) : List (List Char) := lines (s ++ ['\n'])

def first (s : List Char) : List Char := (pieces s).headD []

def strays (s : List Char) : List (List Char) := (pieces s).tail

theorem isLineEnd_newline : isLineEnd '\n' = true := by decide

theorem isLineEnd_return : isLineEnd '\r' = true := by decide

theorem noLineEnd_of_all {s : List Char} (h : s.all fun c => !isLineEnd c) :
    ∀ c ∈ s, isLineEnd c = false := by
  simpa using h

theorem lines_newline_cons (r : List Char) : lines ('\n' :: r) = [] :: lines r := by
  rw [lines_cons (.inl (by decide)), if_pos isLineEnd_newline]

theorem pieces_cons {c : Char} {s : List Char} (h : c ≠ '\r' ∨ s ≠ [] ∧ s.head? ≠ some '\n') :
    pieces (c :: s) = if isLineEnd c then [] :: pieces s
      else match pieces s with
        | [] => [[c]]
        | l :: ls => (c :: l) :: ls := by
  refine lines_cons (h.imp_right fun ⟨hne, hhead⟩ => ?_)
  cases s with
  | nil => exact absurd rfl hne
  | cons d s => exact hhead

theorem pieces_ne_nil (s : List Char) : pieces s ≠ [] := by
  unfold pieces
  cases s with
  | nil => decide
  | cons c s =>
    rw [List.cons_append, lines.eq_def]
    split
    next heq => cases heq
    next => simp
    next =>
      split
      · simp
      · split <;> simp

theorem pieces_eq (s : List Char) : pieces s = first s :: strays s := by
  rw [first, strays]
  cases h : pieces s with
  | nil => exact absurd h (pieces_ne_nil s)
  | cons l ls => rfl

theorem lines_append_newline (s r : List Char) : lines (s ++ '\n' :: r) = pieces s ++ lines r := by
  match s with
  | [] => simp [pieces, lines_newline_cons, lines]
  | c :: s =>
    by_cases h : c ≠ '\r' ∨ s ≠ [] ∧ s.head? ≠ some '\n'
    · have hstep : c ≠ '\r' ∨ (s ++ '\n' :: r).head? ≠ some '\n' := by
        refine h.imp_right fun ⟨hne, hhead⟩ => ?_
        cases s with
        | nil => exact absurd rfl hne
        | cons d s => exact hhead
      rw [List.cons_append, lines_cons hstep, lines_append_newline s r, pieces_cons h, pieces_eq s]
      split <;> simp
    · -- A carriage return and the line feed behind it are one end, inside the line or at its end.
      push Not at h
      obtain ⟨rfl, hs⟩ := h
      match s with
      | [] => simp [pieces, lines]
      | d :: s =>
        obtain rfl : d = '\n' := by simpa using hs (List.cons_ne_nil _ _)
        simp only [List.cons_append, pieces, lines, lines_append_newline s r]

theorem lines_flatMap (written : List (List Char)) :
    lines (written.flatMap (· ++ ['\n'])) = written.flatMap pieces := by
  induction written with
  | nil => rfl
  | cons s r ih => simp [lines_append_newline, ih]

theorem pieces_append {t : List Char} (ht : ∀ c ∈ t, isLineEnd c = false) (s : List Char) :
    pieces (t ++ s) = (t ++ first s) :: strays s := by
  induction t with
  | nil => exact pieces_eq s
  | cons c t ih =>
    obtain ⟨hc, ht⟩ := List.forall_mem_cons.mp ht
    have hne : c ≠ '\r' := by
      intro heq
      obtain rfl := heq
      exact absurd isLineEnd_return (by simp [hc])
    rw [List.cons_append, pieces_cons (.inl hne), ih ht, hc]
    rfl

theorem pieces_of_noLineEnd {s : List Char} (h : ∀ c ∈ s, isLineEnd c = false) :
    pieces s = [s] := by
  have := pieces_append h []
  rwa [List.append_nil, show first [] = [] by decide, show strays [] = [] by decide,
    List.append_nil] at this

theorem strays_of_noLineEnd {s : List Char} (h : ∀ c ∈ s, isLineEnd c = false) : strays s = [] := by
  rw [strays, pieces_of_noLineEnd h, List.tail_cons]

end ChangeImpact.Text
