import ChangeImpact.Proofs.Risk.Calls

/-!
# Properties in brackets

A bracket may hold a property of a named value and nothing else, blanks aside; the property may be
spread. The scan of a line finds all such brackets, each at its place, since none of them stands
inside another one.
-/

namespace ChangeImpact.Risk.Warning

open Text Imports

def IsPlainName (name : List Char) : Prop :=
  ∃ c r, name = c :: r ∧ isNameStart c = true ∧ ∀ d ∈ r, isNamePart d = true

def IsStep (step : List Char) : Prop :=
  ∃ name, IsPlainName name ∧ (step = '.' :: name ∨ step = '?' :: '.' :: name)

def IsProperty (property : List Char) : Prop :=
  ∃ name step steps, IsPlainName name ∧ (∀ x ∈ step :: steps, IsStep x) ∧
    property = name ++ (step :: steps).flatten

def spreading (inner : List Char) : Bool → List Char
  | true => "...".toList ++ inner
  | false => []

/-- The text begins with a bracket around `property`, perhaps spread, and goes on with `behind`. -/
def Encloses (spread : Bool) (property behind s : List Char) : Prop :=
  ∃ front inner back, IsGap front ∧ IsGap inner ∧ IsGap back ∧ IsProperty property ∧
    s = '[' :: (front ++ (spreading inner spread ++ (property ++ (back ++ ']' :: behind))))

def isLink (c : Char) : Bool := isNamePart c || c == '.' || c == '?'

variable {name step rest s property behind : List Char} {steps : List (List Char)} {c : Char}
  {spread : Bool}

section Characters

theorem isCallee_of_isNamePart (h : isNamePart c = true) : isCallee c = true := by
  rw [isCallee, h, Bool.true_or]

theorem isBlank_of_isNamePart (h : isNamePart c = true) : isBlank c = false :=
  isBlank_of_isCallee (isCallee_of_isNamePart h)

theorem isNamePart_of_isNameStart (h : isNameStart c = true) : isNamePart c = true := by
  have hcallee := isCallee_of_isNameStart h
  rw [isCallee, Bool.or_eq_true, beq_iff_eq] at hcallee
  refine hcallee.resolve_right ?_
  rintro rfl
  exact absurd h (by decide)

theorem IsPlainName.isNamePart (h : IsPlainName name) : ∀ c ∈ name, isNamePart c = true := by
  obtain ⟨c, r, rfl, hc, hr⟩ := h
  exact List.forall_mem_cons.mpr ⟨isNamePart_of_isNameStart hc, hr⟩

theorem isNamePart_of_isLink (h : isLink c = false) : isNamePart c = false := by
  simp only [isLink, Bool.or_eq_false_iff] at h
  exact h.1.1

theorem isLink_of_isBlank (h : isBlank c = true) : isLink c = false := by
  have hcallee := isCallee_of_isBlank h
  rw [isCallee] at hcallee
  rw [isLink, hcallee, Bool.false_or, beq_eq_false_iff_ne]
  rintro rfl
  exact absurd h (by decide)

theorem IsStep.isLink (h : IsStep step) : ∀ c ∈ step, isLink c = true := by
  obtain ⟨name, hname, hstep⟩ := h
  have hlinks : ∀ c ∈ name, Warning.isLink c = true := fun c hc => by
    rw [Warning.isLink, hname.isNamePart c hc]
    rfl
  rcases hstep with rfl | rfl
  · exact List.forall_mem_cons.mpr ⟨by decide, hlinks⟩
  · exact List.forall_mem_cons.mpr ⟨by decide, List.forall_mem_cons.mpr ⟨by decide, hlinks⟩⟩

theorem IsStep.head (h : IsStep step) (s : List Char) :
    ∀ c ∈ (step ++ s).head?, isNamePart c = false := by
  obtain ⟨name, -, rfl | rfl⟩ := h
  · exact forall_head?_cons.mpr (by decide)
  · exact forall_head?_cons.mpr (by decide)

theorem IsStep.ne_nil (h : IsStep step) : step ≠ [] := by
  obtain ⟨name, -, rfl | rfl⟩ := h
  · exact List.cons_ne_nil _ _
  · exact List.cons_ne_nil _ _

theorem IsProperty.isLink (h : IsProperty property) : ∀ c ∈ property, isLink c = true := by
  obtain ⟨name, step, steps, hname, hsteps, rfl⟩ := h
  refine List.forall_mem_append.mpr ⟨fun c hc => ?_, fun c hc => ?_⟩
  · rw [Warning.isLink, hname.isNamePart c hc]
    rfl
  · obtain ⟨x, hx, hc⟩ := List.mem_flatten.mp hc
    exact (hsteps x hx).isLink c hc

theorem IsProperty.head (h : IsProperty property) (s : List Char) :
    ∃ c r, property ++ s = c :: r ∧ isNameStart c = true := by
  obtain ⟨_, step, steps, ⟨c, r, rfl, hc, -⟩, -, rfl⟩ := h
  exact ⟨c, _, rfl, hc⟩

end Characters

section Parts

theorem name?_eq_some : name? s = some (name, rest) ↔
    IsPlainName name ∧ s = name ++ rest ∧ ∀ c ∈ rest.head?, isNamePart c = false := by
  constructor
  · intro h
    cases s with
    | nil => cases h
    | cons c r =>
      rw [name?] at h
      split at h
      next hc =>
        obtain ⟨rfl, rfl⟩ := Prod.mk.inj (Option.some.inj h)
        refine ⟨⟨c, _, rfl, hc, fun _ hd => List.mem_takeWhile_imp hd⟩, ?_, ?_⟩
        · rw [List.cons_append, List.takeWhile_append_dropWhile]
        · intro d hd
          have hstop := List.head?_dropWhile_not isNamePart r
          rw [Option.mem_def.mp hd] at hstop
          simpa using hstop
      next => cases h
  · rintro ⟨⟨c, r, rfl, hc, hr⟩, rfl, hrest⟩
    rw [List.cons_append, name?, if_pos hc, takeWhile_append_of_head hr hrest,
      dropWhile_append_of_head hr hrest]

theorem property?_eq_some : property? s = some (step, rest) ↔
    IsStep step ∧ s = step ++ rest ∧ ∀ c ∈ rest.head?, isNamePart c = false := by
  constructor
  · intro h
    unfold property? at h
    split at h
    next r =>
      obtain ⟨⟨name, _⟩, hname, heq⟩ := Option.map_eq_some_iff.mp h
      obtain ⟨rfl, rfl⟩ := Prod.mk.inj heq
      obtain ⟨hplain, rfl, hrest⟩ := name?_eq_some.mp hname
      exact ⟨⟨name, hplain, .inl rfl⟩, rfl, hrest⟩
    next r =>
      obtain ⟨⟨name, _⟩, hname, heq⟩ := Option.map_eq_some_iff.mp h
      obtain ⟨rfl, rfl⟩ := Prod.mk.inj heq
      obtain ⟨hplain, rfl, hrest⟩ := name?_eq_some.mp hname
      exact ⟨⟨name, hplain, .inr rfl⟩, rfl, hrest⟩
    next => cases h
  · rintro ⟨⟨name, hplain, rfl | rfl⟩, rfl, hrest⟩
    · simp only [List.cons_append, property?, name?_eq_some.mpr ⟨hplain, rfl, hrest⟩,
        Option.map_some]
    · simp only [List.cons_append, property?, name?_eq_some.mpr ⟨hplain, rfl, hrest⟩,
        Option.map_some]

theorem property?_eq_none (hs : ∀ c ∈ s.head?, isLink c = false) : property? s = none := by
  rw [Option.eq_none_iff_forall_ne_some]
  rintro ⟨step, rest⟩ h
  obtain ⟨hstep, rfl, -⟩ := property?_eq_some.mp h
  obtain ⟨c, r, rfl⟩ := List.exists_cons_of_ne_nil hstep.ne_nil
  have hc := hs c rfl
  rw [hstep.isLink c List.mem_cons_self] at hc
  cases hc

theorem exists_properties (n : Nat) (s : List Char) : ∃ steps : List (List Char),
    (∀ x ∈ steps, IsStep x) ∧ (properties n s).1 = steps.flatten ∧
      s = steps.flatten ++ (properties n s).2 := by
  induction n generalizing s with
  | zero => exact ⟨[], List.forall_mem_nil _, rfl, rfl⟩
  | succ n ih =>
    rw [properties]
    split
    next step r hread =>
      obtain ⟨hstep, rfl, -⟩ := property?_eq_some.mp hread
      obtain ⟨steps, hsteps, hmore, hr⟩ := ih r
      refine ⟨step :: steps, List.forall_mem_cons.mpr ⟨hstep, hsteps⟩, ?_, ?_⟩
      · rw [List.flatten_cons, ← hmore]
      · rw [List.flatten_cons, List.append_assoc, ← hr]
    next => exact ⟨[], List.forall_mem_nil _, rfl, rfl⟩

theorem properties_append {n : Nat} (hsteps : ∀ x ∈ steps, IsStep x) (hn : steps.length ≤ n)
    (hrest : ∀ c ∈ rest.head?, isLink c = false) :
    properties n (steps.flatten ++ rest) = (steps.flatten, rest) := by
  induction steps generalizing n with
  | nil =>
    cases n with
    | zero => rfl
    | succ n => rw [List.flatten_nil, List.nil_append, properties, property?_eq_none hrest]
  | cons step steps ih =>
    obtain ⟨hstep, hsteps⟩ := List.forall_mem_cons.mp hsteps
    obtain ⟨n, rfl⟩ : ∃ m, n = m + 1 := ⟨n - 1, by rw [List.length_cons] at hn; omega⟩
    have hhead : ∀ c ∈ (steps.flatten ++ rest).head?, isNamePart c = false := by
      cases steps with
      | nil => exact fun c hc => isNamePart_of_isLink (hrest c hc)
      | cons x xs =>
        rw [List.flatten_cons, List.append_assoc]
        exact (hsteps x List.mem_cons_self).head _
    rw [List.flatten_cons, List.append_assoc, properties,
      property?_eq_some.mpr ⟨hstep, rfl, hhead⟩]
    simp only [ih hsteps (Nat.le_of_succ_le_succ hn)]

theorem length_le_length_flatten (hsteps : ∀ x ∈ steps, IsStep x) :
    steps.length ≤ steps.flatten.length := by
  induction steps with
  | nil => exact Nat.le_refl 0
  | cons step steps ih =>
    obtain ⟨hstep, hsteps⟩ := List.forall_mem_cons.mp hsteps
    have hpos := List.length_pos_of_ne_nil hstep.ne_nil
    have hle := ih hsteps
    rw [List.flatten_cons, List.length_append, List.length_cons]
    omega

end Parts

section Whole

theorem isLink_head_bracket {back : List Char} (hback : IsGap back) (behind : List Char) :
    ∀ c ∈ (back ++ ']' :: behind).head?, isLink c = false := by
  cases back with
  | nil => exact forall_head?_cons.mpr (by decide)
  | cons d r => exact forall_head?_cons.mpr (isLink_of_isBlank (hback d List.mem_cons_self))

def enclosed? (s : List Char) : Option (List Char × List Char) := do
  let (name, r) ← name? s
  let (first, r) ← property? r
  let (more, r) := properties r.length r
  let behind ← after? [']'] (skipBlanks r)
  pure (name ++ first ++ more, behind)

theorem enclosed?_eq_some : enclosed? s = some (property, behind) ↔
    IsProperty property ∧ ∃ back, IsGap back ∧ s = property ++ (back ++ ']' :: behind) := by
  rw [enclosed?]
  constructor
  · intro h
    obtain ⟨⟨name, r⟩, hname, h⟩ := Option.bind_eq_some_iff.mp h
    obtain ⟨⟨step, t⟩, hfirst, h⟩ := Option.bind_eq_some_iff.mp h
    obtain ⟨_, hbehind, h⟩ := Option.bind_eq_some_iff.mp h
    obtain ⟨rfl, rfl⟩ := Prod.mk.inj (Option.some.inj h)
    obtain ⟨hplain, rfl, -⟩ := name?_eq_some.mp hname
    obtain ⟨hstep, rfl, -⟩ := property?_eq_some.mp hfirst
    obtain ⟨steps, hsteps, hmore, ht⟩ := exists_properties t.length t
    obtain ⟨back, hback, hskip⟩ := exists_gap (properties t.length t).2
    rw [after?_eq_some.mp hbehind] at hskip
    refine ⟨⟨name, step, steps, hplain, List.forall_mem_cons.mpr ⟨hstep, hsteps⟩, ?_⟩, back,
      hback, ?_⟩
    · rw [hmore, List.flatten_cons, List.append_assoc]
    · rw [hmore, List.append_assoc, List.append_assoc]
      refine congrArg (fun r => name ++ (step ++ r)) ?_
      conv_lhs => rw [ht, ← hskip]
      rfl
  · rintro ⟨⟨name, step, steps, hplain, hsteps, rfl⟩, back, hback, rfl⟩
    obtain ⟨hstep, hsteps⟩ := List.forall_mem_cons.mp hsteps
    have hend := isLink_head_bracket hback behind
    have hmore : ∀ c ∈ (steps.flatten ++ (back ++ ']' :: behind)).head?, isNamePart c = false := by
      cases steps with
      | nil => exact fun c hc => isNamePart_of_isLink (hend c hc)
      | cons x xs =>
        rw [List.flatten_cons, List.append_assoc]
        exact (hsteps x List.mem_cons_self).head _
    have hfuel : steps.length ≤ (steps.flatten ++ (back ++ ']' :: behind)).length := by
      rw [List.length_append]
      exact Nat.le_add_right_of_le (length_le_length_flatten hsteps)
    have hclose : after? [']'] (skipBlanks (back ++ ']' :: behind)) = some behind := by
      rw [skipBlanks_gap hback (forall_head?_cons.mpr (by decide))]
      exact after?_append [']'] behind
    rw [List.flatten_cons, List.append_assoc, List.append_assoc,
      name?_eq_some.mpr ⟨hplain, rfl, hstep.head _⟩]
    simp only [Option.bind_eq_bind, Option.bind_some, property?_eq_some.mpr ⟨hstep, rfl, hmore⟩,
      properties_append hsteps hfuel hend, hclose, List.append_assoc]
    rfl

theorem bracketed_cons (before : Option Char) (r : List Char) : bracketed before ('[' :: r) =
    match after? "...".toList (skipBlanks r) with
    | some t => (enclosed? (skipBlanks t)).map fun (property, behind) =>
        ((true, property), r.length + 1 - behind.length)
    | none => (enclosed? (skipBlanks r)).map fun (property, behind) =>
        ((false, property), r.length + 1 - behind.length) := by
  have hopen : after? ['['] ('[' :: r) = some r := after?_append ['['] r
  rw [bracketed, hopen]
  simp only [Option.bind_eq_bind, Option.bind_some]
  cases after? "...".toList (skipBlanks r) with
  | none =>
    simp only [enclosed?, Option.bind_eq_bind, Option.map_bind, Function.comp_def, Option.pure_def,
      Option.map_some, List.append_assoc, List.length_cons]
  | some t =>
    simp only [enclosed?, Option.bind_eq_bind, Option.map_bind, Function.comp_def, Option.pure_def,
      Option.map_some, List.append_assoc, List.length_cons]

theorem bracketed_eq_none {before : Option Char} (hs : ∀ c ∈ s.head?, c ≠ '[') :
    bracketed before s = none := by
  have hnone : after? ['['] s = none := by
    rw [Option.eq_none_iff_forall_ne_some]
    intro r hr
    obtain rfl := after?_eq_some.mp hr
    exact hs '[' rfl rfl
  rw [bracketed, hnone]
  rfl

theorem after?_dots (hs : ∀ c ∈ s.head?, isLink c = true → isNameStart c = true) :
    after? "...".toList s = none := by
  rw [Option.eq_none_iff_forall_ne_some]
  intro r hr
  obtain rfl := after?_eq_some.mp hr
  exact absurd (hs '.' rfl (by decide)) (by decide)

theorem encloses_of_enclosed? {r inner : List Char} (hinner : IsGap inner)
    (hskip : skipBlanks r = spreading inner spread ++ s)
    (h : enclosed? s = some (property, behind)) : Encloses spread property behind ('[' :: r) := by
  obtain ⟨front, hfront, hr⟩ := exists_gap r
  obtain ⟨hproperty, back, hback, rfl⟩ := enclosed?_eq_some.mp h
  refine ⟨front, inner, back, hfront, hinner, hback, hproperty, ?_⟩
  rw [← hskip, hr]

theorem of_bracketed {before : Option Char} {size : Nat}
    (h : bracketed before s = some ((spread, property), size)) :
    ∃ behind, Encloses spread property behind s ∧ size = s.length - behind.length := by
  by_cases hs : ∀ c ∈ s.head?, c ≠ '['
  · rw [bracketed_eq_none hs] at h
    cases h
  · obtain ⟨r, rfl⟩ : ∃ r, s = '[' :: r := by
      simpa [List.head?_eq_some_iff] using hs
    rw [bracketed_cons] at h
    split at h
    next t ht =>
      obtain ⟨⟨property, behind⟩, hread, heq⟩ := Option.map_eq_some_iff.mp h
      obtain ⟨⟨rfl, rfl⟩, rfl⟩ := (Prod.mk.inj heq).imp_left Prod.mk.inj
      obtain ⟨inner, hinner, hspread⟩ := exists_gap t
      refine ⟨behind, encloses_of_enclosed? hinner ?_ hread, rfl⟩
      rw [spreading, List.append_assoc, hspread, ← after?_eq_some.mp ht]
    next hdots =>
      obtain ⟨⟨property, behind⟩, hread, heq⟩ := Option.map_eq_some_iff.mp h
      obtain ⟨⟨rfl, rfl⟩, rfl⟩ := (Prod.mk.inj heq).imp_left Prod.mk.inj
      exact ⟨behind, encloses_of_enclosed? (List.forall_mem_nil _) rfl hread, rfl⟩

theorem bracketed_eq_some {before : Option Char} {size : Nat} :
    bracketed before s = some ((spread, property), size) ↔
      ∃ behind, Encloses spread property behind s ∧ size = s.length - behind.length := by
  constructor
  · exact of_bracketed
  · rintro ⟨behind, ⟨front, inner, back, hfront, hinner, hback, hproperty, rfl⟩, rfl⟩
    obtain ⟨c, r, hcr, hc⟩ := hproperty.head (back ++ ']' :: behind)
    have hblank : ∀ c ∈ (property ++ (back ++ ']' :: behind)).head?, isBlank c = false := by
      rw [hcr]
      exact forall_head?_cons.mpr (isBlank_of_isNamePart (isNamePart_of_isNameStart hc))
    have hread : enclosed? (property ++ (back ++ ']' :: behind)) = some (property, behind) :=
      enclosed?_eq_some.mpr ⟨hproperty, back, hback, rfl⟩
    rw [bracketed_cons]
    cases spread with
    | true =>
      have hdots (t : List Char) : skipBlanks (front ++ ("...".toList ++ t)) = "...".toList ++ t :=
        skipBlanks_gap (s := '.' :: '.' :: '.' :: t) hfront (forall_head?_cons.mpr (by decide))
      rw [spreading, List.append_assoc, hdots, after?_append]
      simp only [skipBlanks_gap hinner hblank, hread, Option.map_some, List.length_cons]
    | false =>
      have hdots : after? "...".toList (property ++ (back ++ ']' :: behind)) = none := by
        rw [hcr]
        exact after?_dots (forall_head?_cons.mpr fun _ => hc)
      rw [spreading, List.nil_append, skipBlanks_gap hfront hblank, hdots]
      simp only [hread, Option.map_some, List.length_cons]

/-- Between a bracket around a property and the one that closes it no other bracket opens. -/
theorem Encloses.within (h : Encloses spread property behind s) :
    ∃ within, s = '[' :: (within ++ behind) ∧ '[' ∉ within := by
  obtain ⟨front, inner, back, hfront, hinner, hback, hproperty, rfl⟩ := h
  have hgap (gap : List Char) (hgap : IsGap gap) : '[' ∉ gap := fun hmem =>
    absurd (hgap _ hmem) (by decide)
  refine ⟨front ++ (spreading inner spread ++ (property ++ (back ++ [']']))), by simp, ?_⟩
  have hspread : '[' ∉ spreading inner spread := by
    cases spread with
    | true => exact List.not_mem_append (by decide) (hgap inner hinner)
    | false => exact List.not_mem_nil
  have hlinks : '[' ∉ property := fun hmem => absurd (hproperty.isLink _ hmem) (by decide)
  simp [hgap front hfront, hspread, hlinks, hgap back hback]

theorem apart_bracketed : Apart bracketed := by
  rintro before u v ⟨⟨spread, property⟩, size⟩ hu h hlt
  obtain ⟨behind, hencloses, rfl⟩ := bracketed_eq_some.mp h
  obtain ⟨within, hwhole, hwithin⟩ := hencloses.within
  obtain ⟨c, w, rfl⟩ := List.exists_cons_of_ne_nil hu
  obtain ⟨-, hw⟩ := List.cons.inj hwhole
  have hshort : w.length < within.length := by
    rw [hwhole, List.length_cons, List.length_cons, List.length_append] at hlt
    omega
  rcases List.append_eq_append_iff.mp hw with ⟨x, rfl, rfl⟩ | ⟨x, rfl, -⟩
  · rw [List.length_append] at hshort
    obtain ⟨d, x, rfl⟩ := List.exists_cons_of_length_pos (l := x) (by omega)
    refine bracketed_eq_none (forall_head?_cons.mpr ?_)
    rintro rfl
    exact hwithin (List.mem_append_right _ List.mem_cons_self)
  · rw [List.length_append] at hshort
    omega

end Whole

end ChangeImpact.Risk.Warning
