import ChangeImpact.Proofs.Risk.Accounted
import ChangeImpact.Proofs.Text.Strip
import ChangeImpact.Text.LowerCase
import Mathlib.Data.List.Infix

/-!
# Texts in lower case

A text that consists of characters in lower case stands in the lower-case form of every text that
holds it. No other text stands even in its own lower-case form.
-/

namespace ChangeImpact.Text

/-- A character that is its own lower-case form: no other one and not two characters. -/
def IsLower (c : Char) : Prop := lowerChar c = c ∧ c.toNat ≠ 0x130

instance (c : Char) : Decidable (IsLower c) := inferInstanceAs (Decidable (_ ∧ _))

theorem lowerChar_sigma : ∀ c : Char, c.toNat = 0x3A3 → lowerChar c ≠ c := fun c hc => by
  rw [← Char.ofNat_toNat c, hc]
  decide +kernel

def formOf (before : List Char) (c : Char) (r : List Char) : List Char :=
  if c.toNat == 0x3A3 then
    if meetsCased before && !meetsCased r then ['ς'] else ['σ']
  else if c.toNat == 0x130 then ['i', '\u0307']
  else [lowerChar c]

theorem lowerAfter_cons (before : List Char) (c : Char) (r : List Char) :
    lowerAfter before (c :: r) = formOf before c r ++ lowerAfter (c :: before) r := rfl

theorem formOf_of_isLower {c : Char} (h : IsLower c) (before r : List Char) :
    formOf before c r = [c] := by
  have hsigma : c.toNat ≠ 0x3A3 := fun hc => lowerChar_sigma c hc h.1
  simp [formOf, hsigma, h.2, h.1]

theorem lowerAfter_of_ascii {s : List Char} (h : ∀ c ∈ s, c.toNat < 128) (before : List Char) :
    lowerAfter before s = s.map Char.toLower := by
  induction s generalizing before with
  | nil => rfl
  | cons c r ih =>
    obtain ⟨hc, hr⟩ := List.forall_mem_cons.mp h
    have hform : formOf before c r = [c.toLower] := by
      simp [formOf, lowerChar, hc, show c.toNat ≠ 0x3A3 by omega, show c.toNat ≠ 0x130 by omega]
    rw [lowerAfter_cons, hform, ih hr]
    rfl

theorem toList_lower_eq (s : String) : (lower s).toList = lowerAfter [] s.toList := by
  rw [lower]
  split
  next h =>
    have hascii : ∀ c ∈ s.toList, c.toNat < 128 := by simpa using h
    rw [lowerAfter_of_ascii hascii]
    exact String.toList_map
  next => exact String.toList_ofList

section Kept

theorem exists_lowerAfter_append (before s t : List Char) :
    ∃ u, lowerAfter before (s ++ t) = u ++ lowerAfter (s.reverse ++ before) t := by
  induction s generalizing before with
  | nil => exact ⟨[], rfl⟩
  | cons c r ih =>
    obtain ⟨u, hu⟩ := ih (c :: before)
    refine ⟨formOf before c (r ++ t) ++ u, ?_⟩
    rw [List.cons_append, lowerAfter_cons, hu, List.append_assoc, List.reverse_cons,
      List.append_assoc]
    rfl

theorem lowerAfter_append_of_isLower {s : List Char} (h : ∀ c ∈ s, IsLower c)
    (before t : List Char) :
    lowerAfter before (s ++ t) = s ++ lowerAfter (s.reverse ++ before) t := by
  induction s generalizing before with
  | nil => rfl
  | cons c r ih =>
    obtain ⟨hc, hr⟩ := List.forall_mem_cons.mp h
    rw [List.cons_append, lowerAfter_cons, formOf_of_isLower hc, ih hr, List.reverse_cons,
      List.append_assoc]
    rfl

/-- What stands in a text and is in lower case stands in the lower-case form of the text. -/
theorem infix_lower {f s : String} (h : ∀ c ∈ f.toList, IsLower c) (hf : f.toList <:+: s.toList) :
    f.toList <:+: (lower s).toList := by
  obtain ⟨before, behind, hs⟩ := hf
  rw [toList_lower_eq, ← hs, List.append_assoc]
  obtain ⟨u, hu⟩ := exists_lowerAfter_append [] before (f.toList ++ behind)
  rw [hu, lowerAfter_append_of_isLower h]
  exact ⟨u, _, List.append_assoc _ _ _⟩

end Kept

section Changed

theorem toNat_charOfNat (n : Nat) : (Char.ofNat n).toNat = if n.isValidChar then n else 0 := by
  by_cases h : n.isValidChar
  · rw [if_pos h, Char.ofNat, dif_pos h]
    rfl
  · rw [if_neg h, Char.ofNat, dif_neg h]
    rfl

theorem lowerChar_ne_dotted {c : Char} (hc : c.toNat ≠ 0x130) : (lowerChar c).toNat ≠ 0x130 := by
  have hascii : ∀ n < 128, (Char.ofNat n).toLower.toNat ≠ 0x130 := by decide
  have htable : ∀ s ∈ caseShifts, ¬ s.covers (Char.ofNat (0x130 - s.shift).toNat) := by
    decide +kernel
  unfold lowerChar
  split
  next h =>
    rw [← Char.ofNat_toNat c]
    exact hascii _ h
  next h =>
    split
    next s hs =>
      intro heq
      have hplace : c.toNat = (0x130 - s.shift).toNat := by
        rw [toNat_charOfNat] at heq
        split at heq
        · simp only [Int.ofNat_eq_natCast] at heq
          omega
        · cases heq
      have hcovers : s.covers c = true := by simpa using List.find?_some hs
      rw [← Char.ofNat_toNat c, hplace] at hcovers
      exact htable s (List.mem_of_find?_eq_some hs) hcovers
    next => exact hc

theorem formOf_ne_dotted {before r : List Char} {c d : Char} (h : d ∈ formOf before c r) :
    d.toNat ≠ 0x130 := by
  unfold formOf at h
  split at h
  next =>
    have hsigma : d = 'ς' ∨ d = 'σ' := by
      split at h
      exacts [.inl (List.mem_singleton.mp h), .inr (List.mem_singleton.mp h)]
    rcases hsigma with rfl | rfl <;> decide
  next =>
    split at h
    next =>
      have hpair : d = 'i' ∨ d = '\u0307' := by simpa using h
      rcases hpair with rfl | rfl <;> decide
    next hdotted =>
      rw [List.mem_singleton.mp h]
      exact lowerChar_ne_dotted (by simpa using hdotted)

theorem lowerAfter_ne_dotted {before s : List Char} {d : Char} (h : d ∈ lowerAfter before s) :
    d.toNat ≠ 0x130 := by
  induction s generalizing before with
  | nil => cases h
  | cons c r ih =>
    rw [lowerAfter_cons, List.mem_append] at h
    rcases h with h | h
    exacts [formOf_ne_dotted h, ih h]

theorem length_formOf {c : Char} (h : c.toNat ≠ 0x130) (before r : List Char) :
    (formOf before c r).length = 1 := by
  unfold formOf
  simp only [beq_eq_false_iff_ne.mpr h, Bool.false_eq_true, if_false]
  split
  · split <;> rfl
  · rfl

theorem length_lowerAfter {s : List Char} (h : ∀ c ∈ s, c.toNat ≠ 0x130) (before : List Char) :
    (lowerAfter before s).length = s.length := by
  induction s generalizing before with
  | nil => rfl
  | cons c r ih =>
    obtain ⟨hc, hr⟩ := List.forall_mem_cons.mp h
    rw [lowerAfter_cons, List.length_append, length_formOf hc, ih hr, List.length_cons,
      Nat.add_comm]

theorem isLower_of_formOf {before r : List Char} {c : Char} (h : formOf before c r = [c]) :
    IsLower c := by
  have hdotted : c.toNat ≠ 0x130 := formOf_ne_dotted (h ▸ List.mem_singleton_self c)
  refine ⟨?_, hdotted⟩
  unfold formOf at h
  split at h
  next hsigma =>
    have hself : c = 'ς' ∨ c = 'σ' := by
      split at h
      exacts [.inl (List.singleton_injective h).symm, .inr (List.singleton_injective h).symm]
    rcases hself with rfl | rfl <;> exact absurd hsigma (by decide)
  next =>
    rw [if_neg (by simpa using hdotted)] at h
    exact List.singleton_injective h

theorem isLower_of_lowerAfter {s before : List Char} (h : lowerAfter before s = s) :
    ∀ c ∈ s, IsLower c := by
  induction s generalizing before with
  | nil => exact List.forall_mem_nil _
  | cons c r ih =>
    have hlength : (formOf before c r).length = 1 :=
      length_formOf (lowerAfter_ne_dotted (h ▸ List.mem_cons_self)) before r
    have hsplit : formOf before c r ++ lowerAfter (c :: before) r = [c] ++ r := h
    obtain ⟨hform, hrest⟩ := List.append_inj hsplit hlength
    exact List.forall_mem_cons.mpr ⟨isLower_of_formOf hform, ih hrest⟩

/-- A text that stands in its own lower-case form is in lower case. -/
theorem isLower_of_infix_lower {f : String} (h : f.toList <:+: (lower f).toList) :
    ∀ c ∈ f.toList, IsLower c := by
  rw [toList_lower_eq] at h
  have hdotted : ∀ c ∈ f.toList, c.toNat ≠ 0x130 := fun c hc =>
    lowerAfter_ne_dotted (h.subset hc)
  have hsame := h.eq_of_length (length_lowerAfter hdotted []).symm
  exact isLower_of_lowerAfter hsame.symm

end Changed

end ChangeImpact.Text

/-!
## Rules that fire on their fragments

A path rule looks for its fragments in the lower-case form of a path, and for the fragments as they
stand in the table. So a rule can be relied on to fire on a fragment exactly if the fragment is in
lower case: `firesOn_iff`. A fragment with a capital does not even let a rule fire on the path that
is the fragment itself.
-/

namespace ChangeImpact.Risk

variable {s : Subject} {t : RuleTable} {diff : Option String} {a : Assessment}

theorem PathRule.fires_iff {rule : PathRule} {path : String} : rule.fires path = true ↔
    ∃ f ∈ rule.fragments, f.toList <:+: (Text.lower path).toList := by
  simp only [fires, List.any_eq_true, Text.occursIn_iff]

/-- Whatever the table and the change, a rule with the fragment is among the signals if a changed
path holds the fragment as it stands in the table. -/
def FiresOn (fragment : String) : Prop :=
  ∀ t s diff a, assess t s diff = .ok a → ∀ rule ∈ t.pathRules, fragment ∈ rule.fragments →
    (∃ path ∈ s.changes.paths, fragment.toList <:+: path.toList) → rule.name ∈ a.signals

def loneRule (fragment : String) : PathRule := ⟨"lone", "Area", [fragment], 1, false, []⟩

def loneTable (fragment : String) : RuleTable := { pathRules := [loneRule fragment] }

def loneChange (path : String) : Subject := { changes := .ofPaths [path] }

theorem paths_loneChange (path : String) : (loneChange path).changes.paths = [path] := by
  simp [loneChange, ChangeSet.ofPaths, ChangeSet.paths, List.eraseDups_cons]

theorem exists_assess_lone (fragment path : String) :
    ∃ a, assess (loneTable fragment) (loneChange path) none = .ok a := by
  have hrule : ∃ o, firePathRule (loneChange path) (loneRule fragment) = .ok o := by
    unfold firePathRule
    dsimp only
    split
    exacts [⟨_, rfl⟩, ⟨_, rfl⟩]
  obtain ⟨o, ho⟩ := hrule
  have hfired : firedRules (loneChange path) (loneTable fragment) = .ok ([o].filterMap id) := by
    simp [firedRules, loneTable, ho, bind, Except.bind, pure, Except.pure]
  exact ⟨_, assess_eq_ok.mpr ⟨_, hfired, [], rfl, rfl⟩⟩

theorem fires_lone {fragment : String} (h : FiresOn fragment) :
    (loneRule fragment).fires fragment = true := by
  obtain ⟨a, ha⟩ := exists_assess_lone fragment fragment
  have hsignal := h _ _ _ a ha (loneRule fragment) List.mem_cons_self List.mem_cons_self
    ⟨fragment, by rw [paths_loneChange]; exact List.mem_cons_self, List.infix_rfl⟩
  rcases (mem_signals ha).mp hsignal with ⟨rule, hrule, ⟨p, hp, hfires⟩, -⟩ | ⟨rule, hrule, -⟩
  · rw [paths_loneChange, List.mem_singleton] at hp
    rw [loneTable, List.mem_singleton] at hrule
    rwa [hp, hrule] at hfires
  · cases hrule

/-- The fragments that every rule fires on are those in lower case. -/
theorem firesOn_iff (fragment : String) :
    FiresOn fragment ↔ ∀ c ∈ fragment.toList, Text.IsLower c := by
  constructor
  · intro h
    obtain ⟨f, hf, hinfix⟩ := PathRule.fires_iff.mp (fires_lone h)
    obtain rfl := List.mem_singleton.mp hf
    exact Text.isLower_of_infix_lower hinfix
  · intro h t s diff a ha rule hrule hmem hheld
    obtain ⟨path, hpath, hinfix⟩ := hheld
    have hfires := PathRule.fires_iff.mpr ⟨fragment, hmem, Text.infix_lower h hinfix⟩
    exact (mem_signals ha).mpr (.inl ⟨rule, hrule, ⟨path, hpath, hfires⟩, rfl⟩)

theorem not_firesOn_capital : ¬ FiresOn "Dockerfile" ∧ ∃ a,
    assess (loneTable "Dockerfile") (loneChange "Dockerfile") none = .ok a ∧ a.signals = [] := by
  have hsignals : (assess (loneTable "Dockerfile") (loneChange "Dockerfile") none).map
      (·.signals) = .ok [] := by decide +kernel
  refine ⟨fun h => ?_, map_eq_ok.mp hsignals⟩
  obtain ⟨f, hf, hinfix⟩ := PathRule.fires_iff.mp (fires_lone h)
  obtain rfl := List.mem_singleton.mp hf
  exact absurd (Text.isLower_of_infix_lower hinfix 'D' (by simp)) (by decide)

end ChangeImpact.Risk
