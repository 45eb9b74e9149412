import ChangeImpact.Proofs.Template.Grammar
import Mathlib.Data.List.Infix

/-!
# Names between braces

A field that names a value may be written with a conversion, with a layout or with steps into the
value, and it may stand in a layout itself. The name between two braces is how one of these fields
is written, and it may also be text that a template shows or a key in brackets. `Mentions` tells of
the fields and `infix_spell_iff` of the written name.
-/

namespace ChangeImpact.Template

namespace Markup

/-- Some field names the value, perhaps one in a layout. -/
def Mentions (name : List Char) : Markup → Prop
  | text _ => False
  | field _ n _ rest => headName n = name ∨ rest.Mentions name
  | laid _ n _ layout rest => headName n = name ∨ layout.Mentions name ∨ rest.Mentions name

instance decidableMentions (name : List Char) : (m : Markup) → Decidable (m.Mentions name)
  | text _ => isFalse id
  | field _ n _ rest =>
    have := decidableMentions name rest
    inferInstanceAs (Decidable (headName n = name ∨ rest.Mentions name))
  | laid _ n _ layout rest =>
    have := decidableMentions name layout
    have := decidableMentions name rest
    inferInstanceAs (Decidable (headName n = name ∨ layout.Mentions name ∨ rest.Mentions name))

end Markup

def between (name : List Char) : List Char := openBrace :: (name ++ [closeBrace])

namespace Markup

/-- The name between two braces stands in the text that the template shows or in the name of a
field, or it is a field: one without conversion and layout. -/
def Shows (name : List Char) : Markup → Prop
  | text s => between name <:+: s
  | field before n conversion rest =>
    between name <:+: before ∨ (n = name ∧ conversion = none ∨ between name <:+: n) ∨
      rest.Shows name
  | laid before n _ layout rest =>
    between name <:+: before ∨ between name <:+: n ∨ layout.Shows name ∨ rest.Shows name

end Markup

def isInert (c : Char) : Bool := !isBrace c && c != ':' && c != '!' && c != '[' && c != ']'

variable {w : List Char}

theorem between_infix_cons {c : Char} {s : List Char} :
    between w <:+: c :: s ↔ c = openBrace ∧ w ++ [closeBrace] <+: s ∨ between w <:+: s := by
  rw [List.infix_cons_iff, between, List.cons_prefix_cons, eq_comm]

theorem inert_cons {c : Char} {r : List Char} (h : ∀ d ∈ c :: r, isInert d = true) :
    (isBrace c = false ∧ c ≠ ':' ∧ c ≠ '!' ∧ c ≠ '[' ∧ c ≠ ']') ∧ ∀ d ∈ r, isInert d = true := by
  obtain ⟨hc, hr⟩ := List.forall_mem_cons.mp h
  exact ⟨by simpa [isInert, and_assoc] using hc, hr⟩

section Text

variable {z : List Char}

theorem prefix_doubled (hw : ∀ c ∈ w, isInert c = true) (hz : ∀ c ∈ z.head?, c = openBrace)
    (s : List Char) : w ++ [closeBrace] <+: doubled s ++ z ↔ w ++ [closeBrace] <+: s := by
  induction w generalizing s with
  | nil =>
    cases s with
    | nil =>
      cases z with
      | nil => rfl
      | cons d z =>
        obtain rfl := hz d rfl
        simp [openBrace, closeBrace]
    | cons c s =>
      rw [doubled_cons]
      split <;> simp
  | cons x w ih =>
    obtain ⟨⟨hx, -⟩, hw⟩ := inert_cons hw
    cases s with
    | nil =>
      cases z with
      | nil => rfl
      | cons d z =>
        obtain rfl := hz d rfl
        have hne : x ≠ openBrace := by
          rintro rfl
          cases hx
        simp [hne]
    | cons c s =>
      rw [doubled_cons]
      cases hc : isBrace c with
      | true =>
        have hne : x ≠ c := by
          rintro rfl
          rw [hx] at hc
          cases hc
        simp [hne]
      | false =>
        simp only [Bool.false_eq_true, if_false, List.cons_append, List.cons_prefix_cons, ih hw]

theorem infix_doubled (hne : w ≠ []) (hw : ∀ c ∈ w, isInert c = true)
    (hz : ∀ c ∈ z.head?, c = openBrace) (s : List Char) :
    between w <:+: doubled s ++ z ↔ between w <:+: s ∨ between w <:+: z := by
  induction s with
  | nil => simp [between]
  | cons c s ih =>
    rw [between_infix_cons (s := s), or_assoc, ← ih, doubled_cons]
    cases hc : isBrace c with
    | false =>
      have hopen : c ≠ openBrace := by
        rintro rfl
        cases hc
      simp [between_infix_cons, hopen]
    | true =>
      -- The name cannot begin with the second of two braces.
      have hsecond : ¬ w ++ [closeBrace] <+: c :: (doubled s ++ z) := by
        obtain ⟨x, r, rfl⟩ := List.exists_cons_of_ne_nil hne
        rw [List.cons_append, List.cons_prefix_cons]
        rintro ⟨rfl, -⟩
        exact absurd hc (by simp [(inert_cons hw).1.1])
      simp only [if_true, List.cons_append, between_infix_cons, hsecond, and_false, false_or,
        prefix_doubled hw hz]

end Text

section Name

variable {name z : List Char}

theorem prefix_bracketed {u : List Char} (hu : ']' ∉ u) (h : isName true name) :
    u <+: name ++ z ↔ u <+: name := by
  induction u generalizing name with
  | nil => simp
  | cons x u ih =>
    obtain ⟨hx, hu⟩ := not_or.mp (mt List.mem_cons.mpr hu)
    cases name with
    | nil => cases h
    | cons c name =>
      rw [List.cons_append, List.cons_prefix_cons, List.cons_prefix_cons]
      refine and_congr_right fun heq => ih hu ?_
      rw [isName, if_pos rfl, ← heq] at h
      rwa [bne_iff_ne.mpr (Ne.symm hx)] at h

theorem bracket_notMem (hw : ∀ c ∈ w, isInert c = true) : ']' ∉ w ++ [closeBrace] := by
  rw [List.mem_append, not_or]
  exact ⟨fun hmem => absurd (hw _ hmem) (by decide), by decide⟩

theorem infix_name (hw : ∀ c ∈ w, isInert c = true) {b : Bool} (h : isName b name) :
    between w <:+: name ++ z ↔ between w <:+: name ∨ between w <:+: z := by
  induction name generalizing b with
  | nil => simp [between]
  | cons c name ih =>
    rw [isName] at h
    rw [List.cons_append, between_infix_cons, between_infix_cons, or_assoc]
    cases b with
    | true =>
      rw [if_pos rfl] at h
      rw [ih h]
      refine or_congr_left (and_congr_right fun heq => prefix_bracketed (bracket_notMem hw) ?_)
      rwa [heq] at h
    | false =>
      simp only [Bool.false_eq_true, if_false, Bool.and_eq_true, Bool.not_eq_true'] at h
      have hopen : c ≠ openBrace := by
        rintro rfl
        cases h.1.1.1
      simp only [hopen, false_and, false_or, ih h.2]

theorem prefix_name (hw : ∀ c ∈ w, isInert c = true) (h : isName false name) {e : Char}
    (he : IsEnd e) : w ++ [closeBrace] <+: name ++ e :: z ↔ name = w ∧ e = closeBrace := by
  induction w generalizing name with
  | nil =>
    cases name with
    | nil => simp [eq_comm]
    | cons c name =>
      have hc : closeBrace ≠ c := by
        rintro rfl
        cases h
      simp [hc]
  | cons x w ih =>
    obtain ⟨⟨hx, hcolon, hbang, hopen, -⟩, hw⟩ := inert_cons hw
    cases name with
    | nil =>
      have hne : x ≠ e := by
        rintro rfl
        rcases he with rfl | rfl | rfl
        exacts [absurd hx (by decide), hcolon rfl, hbang rfl]
      simp [hne]
    | cons c name =>
      rw [List.cons_append, List.cons_append, List.cons_prefix_cons, List.cons.injEq, eq_comm,
        and_assoc]
      refine and_congr_right fun heq => ih hw ?_
      rw [isName, if_neg Bool.false_ne_true, Bool.and_eq_true, heq, beq_eq_false_iff_ne.mpr hopen]
        at h
      exact h.2

theorem infix_opening (hne : w ≠ []) (hw : ∀ c ∈ w, isInert c = true) (h : isName false name)
    (conversion : Option Char) {e : Char} (he : e = closeBrace ∨ e = ':') :
    between w <:+: opening name conversion ++ e :: z ↔
      (name = w ∧ conversion = none ∧ e = closeBrace ∨ between w <:+: name) ∨ between w <:+: z := by
  have hend : between w <:+: e :: z ↔ between w <:+: z := by
    rw [between_infix_cons]
    rcases he with rfl | rfl <;> simp [openBrace, closeBrace]
  rw [opening, List.cons_append, between_infix_cons, List.append_assoc, infix_name hw h]
  cases conversion with
  | none =>
    have hpre := prefix_name (z := z) hw h (he.imp_right .inl)
    simp only [conversionText, Option.elim_none, List.nil_append, true_and, hend, hpre, or_assoc]
  | some c =>
    have hpre := prefix_name (z := c :: e :: z) hw h (.inr (.inr rfl))
    have hconversion : between w <:+: '!' :: c :: e :: z ↔ between w <:+: z := by
      have hkey : ¬ w ++ [closeBrace] <+: e :: z := by
        obtain ⟨x, r, rfl⟩ := List.exists_cons_of_ne_nil hne
        obtain ⟨⟨hx, hcolon, -⟩, -⟩ := inert_cons hw
        rw [List.cons_append, List.cons_prefix_cons]
        rintro ⟨rfl, -⟩
        rcases he with rfl | rfl
        exacts [absurd hx (by decide), hcolon rfl]
      rw [between_infix_cons, between_infix_cons (c := c), hend]
      simp [hkey, openBrace]
    simp only [conversionText, Option.elim_some, List.cons_append, List.nil_append, hconversion,
      hpre, reduceCtorEq, false_and, and_false, false_or, show ('!' = closeBrace) = False by decide]

end Name

section Layout

variable {layout z : List Char}

theorem prefix_balanced (hw : ∀ c ∈ w, isInert c = true) {depth : Nat}
    (h : isBalanced (depth + 1) layout) :
    w ++ [closeBrace] <+: layout ++ z ↔ w ++ [closeBrace] <+: layout := by
  induction w generalizing layout with
  | nil =>
    cases layout with
    | nil => cases h
    | cons c layout => simp
  | cons x w ih =>
    obtain ⟨⟨hx, -⟩, hw⟩ := inert_cons hw
    cases layout with
    | nil => cases h
    | cons c layout =>
      rw [List.cons_append, List.cons_append, List.cons_prefix_cons, List.cons_prefix_cons]
      refine and_congr_right fun heq => ih hw ?_
      obtain ⟨hopen, hclose⟩ := not_or.mp (mt isBrace_iff.mpr (Bool.not_eq_true _ ▸ hx))
      rw [← heq, isBalanced, beq_eq_false_iff_ne.mpr hopen, beq_eq_false_iff_ne.mpr hclose] at h
      exact h

theorem infix_balanced (hw : ∀ c ∈ w, isInert c = true) {depth : Nat}
    (h : isBalanced depth layout) :
    between w <:+: layout ++ closeBrace :: z ↔ between w <:+: layout ∨ between w <:+: z := by
  induction layout generalizing depth with
  | nil =>
    rw [List.nil_append, between_infix_cons]
    simp [between, openBrace, closeBrace]
  | cons c layout ih =>
    rw [isBalanced] at h
    rw [List.cons_append, between_infix_cons, between_infix_cons, or_assoc]
    split at h
    next => rw [ih h, prefix_balanced hw h]
    next hopen =>
      have hne : c ≠ openBrace := by simpa using hopen
      simp only [hne, false_and, false_or]
      split at h
      next =>
        rw [Bool.and_eq_true] at h
        exact ih h.2
      next => exact ih h

end Layout

theorem eq_openBrace_of_opening {name z : List Char} {conversion : Option Char} :
    ∀ c ∈ (opening name conversion ++ z).head?, c = openBrace :=
  fun _ hc => (Option.some.inj hc).symm

/-- Where the name between two braces stands in a written template. -/
theorem infix_spell_iff (hne : w ≠ []) (hw : ∀ c ∈ w, isInert c = true) {m : Markup}
    (h : m.IsWellFormed) : between w <:+: m.spell ↔ m.Shows w := by
  induction m with
  | text s =>
    have hnil := infix_doubled (z := []) hne hw nofun s
    rw [List.append_nil] at hnil
    rw [Markup.spell, hnil, Markup.Shows]
    simp [between]
  | field before name conversion rest ih =>
    rw [Markup.spell, infix_doubled hne hw eq_openBrace_of_opening,
      infix_opening hne hw h.1 _ (.inl rfl), ih h.2, Markup.Shows]
    simp only [and_true]
  | laid before name conversion layout rest ihl ih =>
    obtain ⟨hname, hbalanced, hlayout, hrest⟩ := h
    rw [Markup.spell, infix_doubled hne hw eq_openBrace_of_opening,
      infix_opening hne hw hname _ (.inr rfl), infix_balanced hw hbalanced, ihl hlayout, ih hrest,
      Markup.Shows]
    simp only [show (':' = closeBrace) = False by decide, and_false, false_or]

end ChangeImpact.Template
