import Mathlib.Data.List.Nodup

/-!
# Lists without repetition and tables of entries

A list with its repetitions taken out, and a table as the list of its entries, in which each key
stands once.
-/

namespace ChangeImpact

theorem nodup_eraseDups {α : Type} [BEq α] [LawfulBEq α] (l : List α) : l.eraseDups.Nodup := by
  match l with
  | [] => simp
  | a :: r =>
    have hlt : (r.filter fun b => !b == a).length < r.length + 1 :=
      Nat.lt_succ_of_le (List.length_filter_le _ r)
    rw [List.eraseDups_cons, List.nodup_cons]
    exact ⟨by simp, nodup_eraseDups _⟩
termination_by l.length

theorem eraseDups_of_nodup {α : Type} [BEq α] [LawfulBEq α] {l : List α} (h : l.Nodup) :
    l.eraseDups = l := by
  induction h with
  | nil => rfl
  | @cons a r ha _ ih =>
    have hkeep : r.filter (fun b => !b == a) = r :=
      List.filter_eq_self.mpr fun b hb => by simpa using (ha b hb).symm
    rw [List.eraseDups_cons, hkeep, ih]

theorem eraseDups_sublist {α : Type} [BEq α] [LawfulBEq α] (l : List α) :
    l.eraseDups.Sublist l := by
  match l with
  | [] => simp
  | a :: r =>
    have hlt : (r.filter fun b => !b == a).length < r.length + 1 :=
      Nat.lt_succ_of_le (List.length_filter_le _ r)
    rw [List.eraseDups_cons]
    exact ((eraseDups_sublist _).trans List.filter_sublist).cons_cons a
termination_by l.length

theorem perm_eraseDups {α : Type} [BEq α] [LawfulBEq α] {l l' : List α}
    (h : ∀ a, a ∈ l ↔ a ∈ l') : l.eraseDups.Perm l'.eraseDups := by
  refine (List.perm_ext_iff_of_nodup (nodup_eraseDups l) (nodup_eraseDups l')).mpr fun a => ?_
  rw [List.mem_eraseDups, List.mem_eraseDups, h]

section FirstPlaces

variable {α : Type} [BEq α] [LawfulBEq α] {l : List α} {a b : α}

theorem idxOf_filter_lt {p : α → Bool} (ha : p a = true) (hb : p b = true)
    (h : (l.filter p).idxOf a < (l.filter p).idxOf b) : l.idxOf a < l.idxOf b := by
  induction l with
  | nil => exact h
  | cons c r ih =>
    cases hc : p c with
    | true =>
      rw [List.filter_cons_of_pos hc, List.idxOf_cons, List.idxOf_cons] at h
      rw [List.idxOf_cons, List.idxOf_cons]
      cases hca : c == a <;> cases hcb : c == b <;> simp_all
    | false =>
      rw [List.filter_cons_of_neg (by simp [hc])] at h
      have hne : ∀ x, p x = true → (c == x) = false := fun x hx =>
        beq_eq_false_iff_ne.mpr fun heq => by simp [← heq, hc] at hx
      rw [List.idxOf_cons, List.idxOf_cons, hne a ha, hne b hb]
      exact Nat.succ_lt_succ (ih h)

theorem pairwise_idxOf_eraseDups (l : List α) :
    l.eraseDups.Pairwise fun x y => l.idxOf x < l.idxOf y := by
  match l with
  | [] => simp
  | a :: r =>
    have hlt : (r.filter fun b => !b == a).length < r.length + 1 :=
      Nat.lt_succ_of_le (List.length_filter_le _ r)
    have hne : ∀ x ∈ (r.filter fun b => !b == a).eraseDups, (x == a) = false := fun x hx => by
      simpa using (List.mem_filter.mp (List.mem_eraseDups.mp hx)).2
    have hplace : ∀ x ∈ (r.filter fun b => !b == a).eraseDups,
        (a :: r).idxOf x = r.idxOf x + 1 := fun x hx => by
      rw [List.idxOf_cons, Bool.beq_comm, hne x hx]
      rfl
    rw [List.eraseDups_cons, List.pairwise_cons]
    refine ⟨fun x hx => ?_, (pairwise_idxOf_eraseDups _).imp_of_mem fun {x y} hx hy h => ?_⟩
    · rw [hplace x hx, List.idxOf_cons_self]
      exact Nat.succ_pos _
    · rw [hplace x hx, hplace y hy]
      exact Nat.succ_lt_succ
        (idxOf_filter_lt (p := fun b => !b == a) (by simp [hne x hx]) (by simp [hne y hy]) h)
termination_by l.length

end FirstPlaces

/-- What is found for some items, where each find leads back to its item. -/
theorem map_filterMap_of_inverse {α β : Type} {f : α → Option β} {g : β → α}
    (h : ∀ a b, f a = some b → g b = a) (l : List α) :
    (l.filterMap f).map g = l.filter fun a => (f a).isSome := by
  induction l with
  | nil => rfl
  | cons a l ih =>
    cases ha : f a with
    | none => simp [ha, ih]
    | some b => simp [ha, ih, h a b ha]

theorem find?_filterMap_of_inverse {α β : Type} [BEq α] [LawfulBEq α]
    {f : α → Option β} {g : β → α} (h : ∀ a b, f a = some b → g b = a) (l : List α) (a : α) :
    (l.filterMap f).find? (g · == a) = if a ∈ l then f a else none := by
  induction l with
  | nil => rfl
  | cons c l ih =>
    rcases eq_or_ne c a with rfl | hne
    · cases hc : f c with
      | none => simp [hc, ih]
      | some b => simp [hc, h c b hc]
    · have hskip : ∀ b, f c = some b → (g b == a) = false := fun b hb => by simp [h c b hb, hne]
      cases hc : f c with
      | none => simp [hc, ih, hne.symm]
      | some b => simp [hc, hskip b hc, ih, hne.symm]

section Lookup

variable {α β : Type} [BEq α] [LawfulBEq α]

theorem mem_of_lookup {es : List (α × β)} {k : α} {v : β} (h : es.lookup k = some v) :
    (k, v) ∈ es := by
  obtain ⟨l, r, rfl, -⟩ := List.lookup_eq_some_iff.mp h
  simp

theorem lookup_of_mem {es : List (α × β)} (hnd : (es.map (·.1)).Nodup) {k : α} {v : β}
    (h : (k, v) ∈ es) : es.lookup k = some v := by
  induction es with
  | nil => cases h
  | cons e r ih =>
    obtain ⟨k', v'⟩ := e
    rw [List.map_cons, List.nodup_cons] at hnd
    rcases List.mem_cons.mp h with heq | hr
    · obtain ⟨rfl, rfl⟩ := Prod.mk.inj heq
      exact List.lookup_cons_self
    · have hne : k ≠ k' := by
        intro heq
        obtain rfl := heq
        exact hnd.1 (List.mem_map.mpr ⟨_, hr, rfl⟩)
      rw [List.lookup_cons, beq_eq_false_iff_ne.mpr hne]
      exact ih hnd.2 hr

theorem lookup_filterMap_pair (f : α → Option β) (l : List α) (k : α) :
    (l.filterMap fun a => (f a).map fun v => (a, v)).lookup k = if k ∈ l then f k else none := by
  induction l with
  | nil => rfl
  | cons a l ih =>
    rcases eq_or_ne k a with rfl | hne
    · cases hf : f k with
      | none => simp [hf, ih]
      | some v => simp [hf]
    · have hskip : (k == a) = false := beq_eq_false_iff_ne.mpr hne
      cases hf : f a with
      | none => simp [hf, ih, hne]
      | some v => simp [hf, List.lookup_cons, hskip, ih, hne]

end Lookup

theorem lookup_rel {α β γ : Type} [BEq α] {R : β → γ → Prop} {es : List (α × β)} {fs : List (α × γ)}
    (h : List.Forall₂ (fun e f => e.1 = f.1 ∧ R e.2 f.2) es fs) (k : α) :
    Option.Rel R (es.lookup k) (fs.lookup k) := by
  induction h with
  | nil => exact .none
  | @cons e f es fs hhead _ ih =>
    obtain ⟨k', v⟩ := e
    obtain ⟨_, w⟩ := f
    obtain ⟨rfl, hvalue⟩ := hhead
    rw [List.lookup_cons, List.lookup_cons]
    cases k == k' with
    | true => exact .some hvalue
    | false => exact ih

end ChangeImpact
