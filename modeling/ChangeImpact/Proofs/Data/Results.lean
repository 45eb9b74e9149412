import Mathlib.Data.List.Forall2

/-!
# Results that may be errors

When a sequence of steps, a result with its error renamed or a result for each item of a list is
an error, and when it is not.
-/

namespace ChangeImpact

variable {α β γ ε ε' : Type}

theorem bind_eq_error {x : Except ε α} {f : α → Except ε β} {e : ε} :
    x >>= f = .error e ↔ x = .error e ∨ ∃ a, x = .ok a ∧ f a = .error e := by
  cases x with
  | error e' => simp [bind, Except.bind]
  | ok a => simp [bind, Except.bind]

theorem bind_eq_ok {x : Except ε α} {f : α → Except ε β} {b : β} :
    x >>= f = .ok b ↔ ∃ a, x = .ok a ∧ f a = .ok b := by
  cases x with
  | error e' => simp [bind, Except.bind]
  | ok a => simp [bind, Except.bind]

theorem map_eq_error {x : Except ε α} {f : α → β} {e : ε} :
    x.map f = .error e ↔ x = .error e := by
  cases x <;> simp [Except.map]

theorem map_eq_ok {x : Except ε α} {f : α → β} {b : β} :
    x.map f = .ok b ↔ ∃ a, x = .ok a ∧ f a = b := by
  cases x <;> simp [Except.map]

theorem map_fst_eq_ok {x : Except ε (α × β)} {f : α → γ} {c : γ} {b : β} :
    (x.map fun p => (f p.1, p.2)) = .ok (c, b) ↔ ∃ a, x = .ok (a, b) ∧ f a = c := by
  rw [map_eq_ok]
  constructor
  · rintro ⟨⟨a, b'⟩, hx, heq⟩
    obtain ⟨rfl, rfl⟩ := Prod.mk.inj heq
    exact ⟨a, hx, rfl⟩
  · rintro ⟨a, hx, rfl⟩
    exact ⟨(a, b), hx, rfl⟩

theorem toOption_eq_some {x : Except ε α} {a : α} : x.toOption = some a ↔ x = .ok a := by
  cases x <;> simp [Except.toOption]

theorem mapError_eq_error {x : Except ε α} {f : ε → ε'} {e' : ε'} :
    x.mapError f = .error e' ↔ ∃ e, x = .error e ∧ f e = e' := by
  cases x <;> simp [Except.mapError]

theorem mapError_eq_ok {x : Except ε α} {f : ε → ε'} {a : α} :
    x.mapError f = .ok a ↔ x = .ok a := by
  cases x <;> simp [Except.mapError]

theorem ite_some_eq_none_iff {c : Prop} [Decidable c] {a : α} {o : Option α} :
    (if c then some a else o) = none ↔ ¬c ∧ o = none := by
  split <;> simp [*]

theorem mapM_eq_ok {f : α → Except ε β} {l : List α} {ds : List β} :
    l.mapM f = .ok ds ↔ List.Forall₂ (fun a b => f a = .ok b) l ds := by
  induction l generalizing ds with
  | nil => simp [List.mapM_nil, pure, Except.pure, eq_comm]
  | cons a l ih =>
    rw [List.mapM_cons, List.forall₂_cons_left_iff]
    constructor
    · intro h
      cases ha : f a with
      | error e => simp [ha, bind, Except.bind] at h
      | ok b =>
        cases hl : l.mapM f with
        | error e => simp [ha, hl, bind, Except.bind] at h
        | ok bs =>
          rw [ha, hl] at h
          obtain rfl := Except.ok.inj h
          exact ⟨b, bs, rfl, ih.mp hl, rfl⟩
    · intro hboth
      obtain ⟨b, bs, ha, hbs, rfl⟩ := hboth
      rw [ha, ih.mpr hbs]
      rfl

theorem exists_mapM_iff {f : α → Except ε β} {l : List α} :
    (∃ ds, l.mapM f = .ok ds) ↔ ∀ a ∈ l, ∃ b, f a = .ok b := by
  simp only [mapM_eq_ok]
  induction l with
  | nil => simp
  | cons a l ih =>
    rw [List.forall_mem_cons, ← ih]
    constructor
    · intro h
      obtain ⟨_, h⟩ := h
      obtain ⟨b, bs, ha, hbs, -⟩ := List.forall₂_cons_left_iff.mp h
      exact ⟨⟨b, ha⟩, bs, hbs⟩
    · intro h
      obtain ⟨⟨b, ha⟩, bs, hbs⟩ := h
      exact ⟨b :: bs, .cons ha hbs⟩

theorem map_of_mapM_eq_ok {γ : Type} {f : α → Except ε β} {g : β → γ} {h : α → γ}
    (hstep : ∀ a b, f a = .ok b → g b = h a) {l : List α} {ds : List β} (hl : l.mapM f = .ok ds) :
    ds.map g = l.map h := by
  induction mapM_eq_ok.mp hl with
  | nil => rfl
  | cons hb hbs ih =>
    rw [List.map_cons, List.map_cons, hstep _ _ hb, ih (mapM_eq_ok.mpr hbs)]

theorem mapM_eq_ok_iff {f : α → Except ε β} {l : List α} {ds : List β} (d : β) :
    l.mapM f = .ok ds ↔
      (∀ a ∈ l, ∃ b, f a = .ok b) ∧ ds = l.map fun a => (f a).toOption.getD d := by
  have hvalues : ∀ ds, l.mapM f = .ok ds → ds = l.map fun a => (f a).toOption.getD d := by
    intro ds hl
    have hstep : ∀ a b, f a = .ok b → id b = (f a).toOption.getD d := fun a b h => by
      rw [h]
      rfl
    rw [← map_of_mapM_eq_ok hstep hl, List.map_id]
  rw [← exists_mapM_iff]
  constructor
  · exact fun h => ⟨⟨ds, h⟩, hvalues ds h⟩
  · intro h
    obtain ⟨⟨ds', h⟩, rfl⟩ := h
    rwa [← hvalues ds' h]

end ChangeImpact
