import ChangeImpact.Text.Integer
import Mathlib.Data.List.Basic

/-!
# Reading written numbers

The decimal digits of a number are read back as the number, unless there are more of them than
may be read.
-/

namespace ChangeImpact.Text

theorem digitValue?_digitChar : ∀ d < 10, digitValue? (Nat.digitChar d) = some d := by decide

theorem digitZeros_plain : ∀ z ∈ digitZeros, ∀ d < 10,
    isOuterBlank (Char.ofNat (z + d)) = false ∧ Char.ofNat (z + d) ≠ '_' ∧
      Char.ofNat (z + d) ≠ '+' ∧ Char.ofNat (z + d) ≠ '-' := by decide +kernel

theorem isDigit_plain {c : Char} (h : isDigit c = true) :
    isOuterBlank c = false ∧ c ≠ '_' ∧ c ≠ '+' ∧ c ≠ '-' := by
  obtain ⟨d, hd⟩ := Option.isSome_iff_exists.mp h
  obtain ⟨z, hz, -⟩ := Option.map_eq_some_iff.mp hd
  have hrange : z ≤ c.toNat ∧ c.toNat < z + 10 := by simpa using List.find?_some hz
  have hplain := digitZeros_plain z (List.mem_of_find?_eq_some hz) (c.toNat - z) (by omega)
  rwa [Nat.add_sub_cancel' hrange.1, Char.ofNat_toNat] at hplain

theorem digits_ne_nil (n : Nat) : Decimal.digits n ≠ [] := by
  rw [Decimal.digits]
  split <;> simp

theorem exists_digitChar (n : Nat) : ∀ c ∈ Decimal.digits n, ∃ d < 10, c = Nat.digitChar d := by
  induction n using Decimal.digits.induct with
  | case1 n h =>
    rw [Decimal.digits, if_pos h, List.forall_mem_singleton]
    exact ⟨n, h, rfl⟩
  | case2 n h ih =>
    rw [Decimal.digits, if_neg h, List.forall_mem_append, List.forall_mem_singleton]
    exact ⟨ih, n % 10, Nat.mod_lt _ (by decide), rfl⟩

theorem isDigit_of_mem_digits {n : Nat} {c : Char} (h : c ∈ Decimal.digits n) :
    isDigit c = true := by
  obtain ⟨d, hd, rfl⟩ := exists_digitChar n c h
  rw [isDigit, digitValue?_digitChar d hd]
  rfl

def values (s : List Char) : List Nat := s.filterMap digitValue?

theorem values_digits (n : Nat) : ofDigits (values (Decimal.digits n)) = n := by
  induction n using Decimal.digits.induct with
  | case1 n h =>
    rw [Decimal.digits, if_pos h]
    simp [values, digitValue?_digitChar n h, ofDigits]
  | case2 n h ih =>
    rw [Decimal.digits, if_neg h]
    have hlast := digitValue?_digitChar (n % 10) (Nat.mod_lt _ (by decide))
    simp only [values, List.filterMap_append, List.filterMap_cons, hlast, List.filterMap_nil,
      ofDigits, List.foldl_append, List.foldl_cons, List.foldl_nil] at ih ⊢
    rw [ih]
    omega

theorem leadingDigits?_of_digits {s : List Char} (h : ∀ c ∈ s, isDigit c = true)
    (afterDigit : Bool) (hb : afterDigit = true ∨ s ≠ []) :
    leadingDigits? afterDigit s = some (values s, []) ∧ (values s).length = s.length := by
  induction s generalizing afterDigit with
  | nil => simp_all [leadingDigits?, values]
  | cons c r ih =>
    obtain ⟨hc, hr⟩ := List.forall_mem_cons.mp h
    obtain ⟨d, hd⟩ := Option.isSome_iff_exists.mp hc
    obtain ⟨-, hunder, -⟩ := isDigit_plain hc
    obtain ⟨hread, hlen⟩ := ih hr true (.inl rfl)
    rw [leadingDigits?, if_neg (by simp [hunder]), hd]
    simp only [hread, Option.map_some, values, List.filterMap_cons, hd, true_and]
    simpa [values] using hlen

theorem trim_of_notBlank {p : Char → Bool} {s : List Char} (h : ∀ c ∈ s, p c = false) :
    trim p s = s := by
  have hdrop : ∀ t : List Char, (∀ c ∈ t, p c = false) → t.dropWhile p = t := fun t ht => by
    cases t with
    | nil => rfl
    | cons c r => rw [List.dropWhile_cons, ht c List.mem_cons_self, if_neg Bool.false_ne_true]
  rw [trim, trimRight, hdrop s h, hdrop s.reverse (by simpa using h), List.reverse_reverse]

/-- Numbers whose digits are few enough to be read. -/
def IsReadable (n : Nat) : Prop := (Decimal.digits n).length ≤ digitLimit

instance (n : Nat) : Decidable (IsReadable n) := inferInstanceAs (Decidable (_ ≤ _))

theorem length_digits_le_iff {n k : Nat} (hk : 0 < k) :
    (Decimal.digits n).length ≤ k ↔ n < Nat.pow 10 k := by
  change (Decimal.digits n).length ≤ k ↔ n < 10 ^ k
  induction n using Decimal.digits.induct generalizing k with
  | case1 n h =>
    have hten : 10 ^ 1 ≤ 10 ^ k := Nat.pow_le_pow_right (by decide) hk
    rw [Decimal.digits, if_pos h]
    exact iff_of_true hk (Nat.lt_of_lt_of_le h hten)
  | case2 n h ih =>
    obtain ⟨k, rfl⟩ := Nat.exists_eq_add_one.mpr hk
    rw [Decimal.digits, if_neg h, List.length_append, List.length_singleton,
      Nat.add_le_add_iff_right, Nat.pow_succ, ← Nat.div_lt_iff_lt_mul (by decide)]
    by_cases hk : 0 < k
    · exact ih hk
    · obtain rfl : k = 0 := Nat.eq_zero_of_not_pos hk
      have hne : 0 < (Decimal.digits (n / 10)).length := List.length_pos_iff.mpr (digits_ne_nil _)
      exact iff_of_false (by omega) (by omega)

theorem isReadable_iff {n : Nat} : IsReadable n ↔ n < Nat.pow 10 digitLimit :=
  length_digits_le_iff (by decide)

theorem isReadable_of_lt {n k : Nat} (h : n < Nat.pow 10 k) (hk : k ≤ digitLimit) :
    IsReadable n := by
  -- With the limit in its place the power would be computed.
  have hle : ∀ l, k ≤ l → Nat.pow 10 k ≤ Nat.pow 10 l := fun l hl =>
    Nat.pow_le_pow_right (by decide) hl
  exact isReadable_iff.mpr (Nat.lt_of_lt_of_le h (hle _ hk))

theorem foldl_digits_lt {ds : List Nat} (h : ∀ d ∈ ds, d < 10) (n : Nat) :
    ds.foldl (fun n d => n * 10 + d) n < (n + 1) * Nat.pow 10 ds.length := by
  induction ds generalizing n with
  | nil => exact Nat.lt_of_lt_of_eq (Nat.lt_succ_self n) (Nat.mul_one (n + 1)).symm
  | cons d r ih =>
    obtain ⟨hd, hr⟩ := List.forall_mem_cons.mp h
    have hstep : n * 10 + d + 1 ≤ (n + 1) * 10 := by omega
    calc r.foldl (fun n d => n * 10 + d) (n * 10 + d)
      _ < (n * 10 + d + 1) * Nat.pow 10 r.length := ih hr _
      _ ≤ (n + 1) * 10 * Nat.pow 10 r.length := Nat.mul_le_mul_right _ hstep
      _ = (n + 1) * Nat.pow 10 (r.length + 1) := by
        rw [Nat.mul_assoc, Nat.mul_comm 10]
        rfl

theorem ofDigits_lt {ds : List Nat} (h : ∀ d ∈ ds, d < 10) :
    ofDigits ds < Nat.pow 10 ds.length := by
  have hlt := foldl_digits_lt h 0
  rwa [Nat.zero_add, Nat.one_mul] at hlt

theorem digit_lt {c : Char} (h : c.isDigit = true) : c.toNat - 48 < 10 := by
  have hbounds : 48 ≤ c.toNat ∧ c.toNat ≤ 57 := by
    simpa [Char.isDigit, UInt32.le_iff_toNat_le] using h
  omega

theorem isReadable_of_le_one {n : Nat} (h : n ≤ 1) : IsReadable n :=
  isReadable_of_lt (k := 1) (Nat.lt_of_le_of_lt h (by decide)) (by decide)

theorem natAbs_signed (negative : Bool) (n : Nat) : (signed negative n).natAbs = n := by
  cases negative
  · rfl
  · exact Int.natAbs_neg n

theorem length_digits_pow (k : Nat) : (Decimal.digits (Nat.pow 10 k)).length = k + 1 := by
  have hpos := List.length_pos_iff.mpr (digits_ne_nil (Nat.pow 10 k))
  have hlt : Nat.pow 10 k < Nat.pow 10 (k + 1) :=
    Nat.pow_lt_pow_right (by decide) (Nat.lt_succ_self k)
  have hle := (length_digits_le_iff (Nat.succ_pos k)).mpr hlt
  by_contra hne
  have hk : 0 < k := by omega
  exact Nat.lt_irrefl _ ((length_digits_le_iff hk).mp (by omega))

theorem isReadable_pow_iff {k : Nat} : IsReadable (Nat.pow 10 k) ↔ k < digitLimit := by
  rw [IsReadable, length_digits_pow]
  exact Nat.succ_le_iff

theorem readInteger_digits {s : List Char} (hne : s ≠ []) (h : ∀ c ∈ s, isDigit c = true) :
    readInteger (String.ofList s) =
      if s.length ≤ digitLimit then .ok (ofDigits (values s)) else .error (.tooLong s.length) := by
  have htrim : trim isOuterBlank s = s :=
    trim_of_notBlank fun c hc => (isDigit_plain (h c hc)).1
  have hsign : splitSign s = (false, s) := by
    cases s with
    | nil => rfl
    | cons c r =>
      obtain ⟨-, -, hplus, hminus⟩ := isDigit_plain (h c List.mem_cons_self)
      unfold splitSign
      split <;> simp_all
  obtain ⟨hread, hlen⟩ := leadingDigits?_of_digits h false (.inr hne)
  rw [readInteger, LooseText.visible_ofString, String.toList_ofList, htrim, hsign]
  simp only [hread, hlen, List.isEmpty_nil, if_true, signed, Bool.false_eq_true, if_false]
  by_cases hlimit : s.length ≤ digitLimit
  · rw [if_pos hlimit, if_neg (Nat.not_lt.mpr hlimit)]
  · rw [if_neg hlimit, if_pos (Nat.lt_of_not_le hlimit)]

theorem readInteger_ofNat (n : Nat) : readInteger (Decimal.ofNat n) =
    if IsReadable n then .ok (n : Int)
    else .error (.tooLong (Decimal.digits n).length) := by
  rw [Decimal.ofNat, readInteger_digits (digits_ne_nil n) fun _ => isDigit_of_mem_digits,
    values_digits]
  rfl

end ChangeImpact.Text
