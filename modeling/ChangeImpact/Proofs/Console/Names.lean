import ChangeImpact.Console.Pictograph
import ChangeImpact.Proofs.Data.Entries

/-!
# Text with names between colons

A pictograph has a character beyond ASCII, so the text that is shown is ASCII only if no name in it
is that of a pictograph, and then it is the text as it is.
-/

namespace ChangeImpact.Console

def IsAscii (s : List Char) : Prop := ∀ c ∈ s, isBeyondAscii c = false

theorem isAscii_cons {c : Char} {s : List Char} :
    IsAscii (c :: s) ↔ isBeyondAscii c = false ∧ IsAscii s := List.forall_mem_cons

theorem isAscii_append {s t : List Char} : IsAscii (s ++ t) ↔ IsAscii s ∧ IsAscii t :=
  List.forall_mem_append

section Pictographs

theorem not_isAscii_of_mem {s : List Char} {c : Char} (hc : c ∈ s) (h : isBeyondAscii c = true) :
    ¬ IsAscii s := by
  intro hascii
  rw [hascii c hc] at h
  exact Bool.false_ne_true h

theorem not_isAscii_of_mem_entries {table : String} {e : List Char × List Char}
    (h : e ∈ entries table) : ¬ IsAscii e.2 := by
  obtain ⟨c, hc, hbeyond⟩ := List.any_eq_true.mp (List.mem_filter.mp h).2
  exact not_isAscii_of_mem hc hbeyond

theorem not_isAscii_of_lookup {table : String} {name p : List Char}
    (h : (entries table).lookup name = some p) : ¬ IsAscii p :=
  not_isAscii_of_mem_entries (mem_of_lookup h)

theorem isBeyondAscii_tone : ∀ t ∈ tones, isBeyondAscii (Char.ofNat t.2) = true := by decide

theorem not_isAscii_withTone {t : String × Nat} (ht : t ∈ tones) {p : List Char} (hp : p ≠ []) :
    ¬ IsAscii (withTone t.2 p) := by
  cases p with
  | nil => exact absurd rfl hp
  | cons c r =>
    exact not_isAscii_of_mem (List.mem_cons_of_mem c List.mem_cons_self) (isBeyondAscii_tone t ht)

theorem not_isAscii_pictograph? {name p : List Char} (h : pictograph? name = some p) :
    ¬ IsAscii p := by
  rw [pictograph?, Option.or_eq_some_iff, Option.or_eq_some_iff] at h
  rcases h with (h | ⟨-, h⟩) | ⟨-, h⟩
  · exact @not_isAscii_of_lookup pictographNames _ _ h
  · exact @not_isAscii_of_lookup tonedNames _ _ h
  · obtain ⟨t, ht, h⟩ := List.exists_of_findSome?_eq_some h
    rw [Option.ite_none_right_eq_some, Option.map_eq_some_iff] at h
    obtain ⟨-, q, hq, rfl⟩ := h
    refine not_isAscii_withTone ht fun hnil => @not_isAscii_of_lookup tonedNames _ _ hq ?_
    rw [hnil]
    exact List.forall_mem_nil _

end Pictographs

theorem shownName_of_isAscii {s : List Char} (h : IsAscii (shownName s)) :
    shownName s = ':' :: s ++ [':'] := by
  rw [shownName] at h ⊢
  cases hp : pictograph? (Text.lower (String.ofList (presentation s).1)).toList with
  | some p =>
    rw [hp] at h
    exact absurd (isAscii_append.mp h).1 (not_isAscii_pictograph? hp)
  | none => rfl

def pending : Option (List Char) → List Char
  | none => []
  | some w => ':' :: w.reverse

theorem showNames_of_isAscii {w : Option (List Char)} {s : List Char}
    (h : IsAscii (showNames w s)) : showNames w s = pending w ++ s := by
  -- `w` is what has been read behind a colon; it is shown as it was unless it names a pictograph.
  induction s generalizing w with
  | nil => cases w <;> simp [showNames, pending]
  | cons c r ih =>
    cases w with
    | none =>
      rw [showNames] at h ⊢
      split
      next hc =>
        rw [if_pos hc] at h
        rw [ih h, beq_iff_eq.mp hc]
        rfl
      next hc =>
        rw [if_neg hc] at h
        rw [ih (isAscii_cons.mp h).2]
        rfl
    | some w =>
      rw [showNames] at h ⊢
      split
      next hc =>
        rw [if_pos hc, isAscii_append] at h
        rw [shownName_of_isAscii h.1, ih h.2, beq_iff_eq.mp hc]
        simp [pending]
      next hc =>
        rw [if_neg hc] at h
        split
        next hblank =>
          rw [if_pos hblank] at h
          obtain ⟨-, hrest⟩ := isAscii_append.mp h
          rw [ih (isAscii_cons.mp hrest).2]
          simp [pending]
        next hblank =>
          rw [if_neg hblank] at h
          rw [ih h]
          simp [pending]

theorem showNames_of_noColon {s : List Char} (h : ':' ∉ s) : showNames none s = s := by
  induction s with
  | nil => rfl
  | cons c r ih =>
    rw [List.mem_cons, not_or] at h
    rw [showNames, if_neg (by simpa using Ne.symm h.1), ih h.2]

theorem showNames_append_blank (w : Option (List Char)) (s : List Char) :
    showNames w (s ++ [' ']) = showNames w s ++ [' '] := by
  induction s generalizing w with
  | nil => cases w <;> simp [showNames, show Text.isBlank ' ' = true by decide]
  | cons c r ih => cases w <;> simp only [List.cons_append, showNames, ih] <;> split_ifs <;> simp

end ChangeImpact.Console
