import ChangeImpact.Json.Checked
import ChangeImpact.Proofs.Data.Entries
import ChangeImpact.Proofs.Json.Writing
import ChangeImpact.Proofs.Text.Loose
import Mathlib.Data.List.Forall2

/-!
# Checks that come out good

A check of several fields comes out good where the check of each field does, and a check of items
where that of each item does. A check restores a way of writing where it takes what is written for
any datum back to the datum.
-/

namespace ChangeImpact

namespace Checked

variable {α β : Type} {a : α} {b : β} {x : Checked α}

@[simp] theorem pure_eq_good {a' : α} : (pure a : Checked α) = good a' ↔ a = a' :=
  ⟨good.inj, congrArg good⟩

theorem map_eq_good {f : α → β} : f <$> x = good b ↔ ∃ a, x = good a ∧ f a = b := by
  cases x with
  | good a => exact ⟨fun h => ⟨a, rfl, good.inj h⟩, fun ⟨_, hx, hb⟩ => good.inj hx ▸ hb ▸ rfl⟩
  | bad is => exact ⟨nofun, nofun⟩

theorem seq_eq_good {f : Checked (α → β)} :
    f <*> x = good b ↔ ∃ g a, f = good g ∧ x = good a ∧ g a = b := by
  cases f <;> cases x
  case good.good g a =>
    constructor
    · intro h
      exact ⟨g, a, rfl, rfl, good.inj h⟩
    · rintro ⟨_, _, ⟨⟩, ⟨⟩, rfl⟩
      rfl
  all_goals exact ⟨nofun, nofun⟩

@[simp] theorem under_eq_good {p : Place} : x.under p = good a ↔ x = good a := by
  cases x with
  | good a => exact Iff.rfl
  | bad is => exact ⟨nofun, nofun⟩

@[simp] theorem ensure_eq_good {c : α → Bool} {fault : Fault} {v : Json} :
    x.ensure c fault v = good a ↔ x = good a ∧ c a = true := by
  cases x with
  | good a' =>
    rw [ensure]
    split
    next h => exact ⟨fun heq => ⟨heq, good.inj heq ▸ h⟩, And.left⟩
    next h => exact ⟨nofun, fun ⟨heq, hc⟩ => absurd (good.inj heq ▸ hc) h⟩
  | bad is => exact ⟨nofun, nofun⟩

end Checked

namespace Json

open Checked

variable {α : Type} {check : Check α} {fields : Fields} {name : String} {a : α}

section Named

theorem named?_cons {k : String} {v : Json} : Fields.named? ((.ofString k, v) :: fields) name =
    if name = k then some v else Fields.named? fields name := by
  rw [Fields.named?, List.lookup_cons]
  by_cases h : name = k
  · rw [if_pos h, h, beq_self_eq_true]
  · rw [if_neg h, beq_false_of_ne (LooseText.ofString_inj.not.mpr h)]
    rfl

theorem put_cons {k : String} {u v : Json} : put name v ((.ofString k, u) :: fields) =
    if k = name then (.ofString k, v) :: fields else (.ofString k, u) :: put name v fields := by
  simp [put, LooseText.ofString_inj]

theorem named?_put {v : Json} : Fields.named? (put (.ofString name) v fields) name = some v := by
  rw [Fields.named?]
  induction fields with
  | nil => rw [put, List.lookup_cons_self]
  | cons field r ih =>
    rw [put]
    split
    next heq => rw [eq_of_beq heq, List.lookup_cons_self]
    next hne =>
      rw [Bool.not_eq_true] at hne
      rw [List.lookup_cons, BEq.comm, hne, ih]

end Named

theorem checkObject_eq_good {f : Fields → Checked α} {v : Json} :
    checkObject f v = good a ↔ ∃ fields, v = .object fields ∧ f fields = good a := by
  constructor
  · intro h
    cases v with
    | object fields => exact ⟨fields, rfl, h⟩
    | _ => cases h
  · rintro ⟨fields, rfl, h⟩
    exact h

theorem optional_eq_good {absent : α} : optional fields name absent check = good a ↔
    (∃ v, Fields.named? fields name = some v ∧ check v = good a) ∨
      Fields.named? fields name = none ∧ absent = a := by
  rw [optional]
  cases Fields.named? fields name <;> simp

theorem optional_ensures {P : α → Prop} {absent : α}
    (h : optional fields name absent check = good a) (habsent : P absent)
    (hcheck : ∀ v, (LooseText.ofString name, v) ∈ fields → check v = good a → P a) : P a := by
  rcases optional_eq_good.mp h with ⟨v, hv, hgood⟩ | ⟨-, rfl⟩
  · exact hcheck v (mem_of_lookup hv) hgood
  · exact habsent

theorem checkItems_eq_good {vs : List Json} {as : List α} {index : Nat} :
    checkItems check index vs = good as ↔ List.Forall₂ (fun v a => check v = good a) vs as := by
  induction vs generalizing as index with
  | nil => simp [checkItems, eq_comm]
  | cons v r ih =>
    rw [checkItems, seq_eq_good]
    simp only [map_eq_good, under_eq_good, ih]
    constructor
    · rintro ⟨_, bs, ⟨a, ha, rfl⟩, hbs, rfl⟩
      exact .cons ha hbs
    · rintro (_ | ⟨ha, hbs⟩)
      exact ⟨_, _, ⟨_, ha, rfl⟩, hbs, rfl⟩

section Restoring

/-- The check takes what is written for a datum back to the datum. -/
def Check.Restores (check : Check α) (written : α → Json) : Prop :=
  ∀ a, check (written a) = good a

variable {written : α → Json}

theorem Check.Restores.items (h : check.Restores written) (as : List α) (index : Nat) :
    checkItems check index (as.map written) = good as := by
  refine checkItems_eq_good.mpr ?_
  rw [List.forall₂_map_left_iff, List.forall₂_same]
  exact fun a _ => h a

theorem Check.Restores.tuple (h : check.Restores written) :
    (checkTuple check).Restores fun as => .list (as.map written) := fun as => h.items as 0

theorem Check.Restores.list (h : check.Restores written) :
    (checkList check).Restores fun as => .list (as.map written) := fun as => h.items as 0

theorem checkText_restores : checkText.Restores fun s => .text s := fun s => by
  rw [checkText, LooseText.toString?_ofString]
  rfl

theorem checkLooseText_restores : checkLooseText.Restores .text := fun _ => rfl

theorem checkInt_restores : checkInt.Restores .int := fun _ => rfl

theorem checkBool_restores : checkBool.Restores .bool := fun _ => rfl

end Restoring

end Json

end ChangeImpact
