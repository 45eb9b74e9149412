import ChangeImpact.Proofs.Path.Parts
import ChangeImpact.Text.LooseText

/-!
# Ordinary texts among the loose ones

A loose text is an ordinary one in just one way, and cutting and joining do the same to both.
-/

namespace ChangeImpact

namespace Text

theorem splitWhere_map {α β : Type} (p : β → Bool) (f : α → β) (s : List α) :
    splitWhere p (s.map f) = (splitWhere (fun a => p (f a)) s).map (List.map f) := by
  induction s with
  | nil => rfl
  | cons a r ih =>
    rw [List.map_cons, splitWhere, splitWhere, ih]
    split
    · rfl
    · cases splitWhere (fun a => p (f a)) r with
      | nil => rfl
      | cons g gs => rfl

theorem map_intercalate {α β : Type} (f : α → β) (sep : List α) (ls : List (List α)) :
    (sep.intercalate ls).map f = (sep.map f).intercalate (ls.map (List.map f)) := by
  induction ls with
  | nil => rfl
  | cons l r ih =>
    cases r with
    | nil => simp
    | cons m t =>
      rw [List.map_cons, List.map_cons, List.intercalate_cons_cons, List.intercalate_cons_cons,
        List.map_append, List.map_append, ih, List.map_cons]

end Text

theorem CodePoint.eq_char_of_visible {p : CodePoint} {c : Char} (hc : c ≠ '\uFFFD')
    (h : p.visible = c) : p = .char c := by
  cases p with
  | char d => exact congrArg CodePoint.char h
  | surrogate n => exact absurd h.symm hc

namespace LooseText

@[simp] theorem ofString_inj {s t : String} : ofString s = ofString t ↔ s = t := by
  constructor
  · intro h
    have hvisible := congrArg visible h
    rwa [visible_ofString, visible_ofString] at hvisible
  · exact congrArg ofString

theorem ofString_injective : Function.Injective ofString := fun _ _ => ofString_inj.mp

theorem mapM_char?_eq_some {points : List CodePoint} {s : List Char}
    (h : points.mapM CodePoint.char? = some s) : points = s.map .char := by
  induction points generalizing s with
  | nil =>
    obtain rfl := Option.some.inj h
    rfl
  | cons p r ih =>
    rw [List.mapM_cons] at h
    obtain ⟨c, hc, hr⟩ := Option.bind_eq_some_iff.mp h
    obtain ⟨t, ht, hs⟩ := Option.bind_eq_some_iff.mp hr
    obtain rfl := Option.some.inj hs
    cases p with
    | surrogate n => cases hc
    | char d =>
      obtain rfl := Option.some.inj hc
      rw [ih ht, List.map_cons]

theorem toString?_eq_some {s : LooseText} {t : String} : s.toString? = some t ↔ s = ofString t := by
  constructor
  · intro h
    obtain ⟨cs, hcs, rfl⟩ := Option.map_eq_some_iff.mp h
    rw [ofString, String.toList_ofList, ofChars, ← mapM_char?_eq_some hcs]
  · intro h
    rw [h, toString?_ofString]

end LooseText

end ChangeImpact
