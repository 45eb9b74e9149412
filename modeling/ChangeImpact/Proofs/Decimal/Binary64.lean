import ChangeImpact.Decimal.Binary64
import Mathlib.Algebra.Order.Field.Power
import Mathlib.Data.Rat.Cast.Order
import Mathlib.Tactic.FieldSimp
import Mathlib.Tactic.Linarith
import Mathlib.Tactic.Positivity
import Mathlib.Tactic.Ring

/-!
# Floating-point numbers

The whole of any number and none of it are shares that a floating-point number holds exactly,
however great the number is. What other fractions are rounded to is told by the middles between
the numbers.
-/

namespace ChangeImpact.Binary64

def one : Binary64 := .finite false (Nat.pow 2 52) (-52)

theorem nearest_zero (negative : Bool) (q : Nat) :
    nearest negative 0 q = .finite negative 0 leastExponent := rfl

theorem divToEven_mul {n : Nat} (h : 0 < n) (m : Nat) : divToEven (n * m) n = m := by
  simp only [divToEven, Nat.mul_mod_right, Nat.mul_div_cancel_left m h]
  rw [Nat.mul_zero, if_pos h]

theorem exponentFor_self {n : Nat} (h : 0 < n) : exponentFor n n = -52 := by
  have hstart : max ((n.log2 : Int) - n.log2 - 53) leastExponent = -53 := by
    rw [Int.sub_self]
    rfl
  have hscaled : unscale n n (-53) = (n * Nat.pow 2 53, n) := rfl
  have hfull : n * Nat.pow 2 53 / n = Nat.pow 2 53 := Nat.mul_div_cancel_left _ h
  rw [exponentFor, hstart, hscaled]
  simp only [hfull]
  rfl

theorem nearest_of_unscale {n m : Nat} {e : Int} (h : 0 < n) (hexponent : exponentFor n n = e)
    (hscaled : unscale n n e = (n * m, n)) (hm : m ≠ Nat.pow 2 53) (he : ¬greatestExponent < e) :
    nearest false n n = .finite false m e := by
  rw [nearest, if_neg (Nat.ne_of_gt h), hexponent]
  simp only [hscaled, divToEven_mul h, if_neg hm, if_neg he]

theorem nearest_self {n : Nat} (h : 0 < n) : nearest false n n = one :=
  nearest_of_unscale h (exponentFor_self h) rfl (by decide) (by decide)

end ChangeImpact.Binary64

/-!
## The nearest floating-point number

What a fraction is rounded to, told by the middles between the numbers: a fraction is rounded to a
number or one above it just if it lies above the middle below that number, or on it where the
number is the even one. So rounding keeps the order of fractions.
-/

namespace ChangeImpact.Binary64

structure RoundsTo (x : ℚ) (m : ℕ) (e : ℤ) : Prop where
  least_le : leastExponent ≤ e
  lt : x < 2 ^ 53 * 2 ^ e
  le : e ≠ leastExponent → 2 ^ 52 * 2 ^ e ≤ x
  le_iff : ∀ n : ℕ, n ≤ m ↔
    (n - 1 / 2) * 2 ^ e < x ∨ ((n - 1 / 2) * 2 ^ e = x ∧ n % 2 = 0)

theorem le_divToEven {a b n : ℕ} (hb : 0 < b) : n ≤ divToEven a b ↔
    2 * n * b < 2 * a + b ∨ (2 * n * b = 2 * a + b ∧ n % 2 = 0) := by
  have ha : b * (a / b) + a % b = a := Nat.div_add_mod a b
  have hr : a % b < b := Nat.mod_lt a hb
  rw [divToEven]
  generalize a / b = q at *
  generalize a % b = r at *
  subst ha
  rcases Nat.lt_trichotomy n (q + 1) with hn | rfl | hn
  · have hle : n * b ≤ q * b := Nat.mul_le_mul_right b (Nat.lt_succ_iff.mp hn)
    have hlt : 2 * n * b < 2 * (b * q + r) + b := by nlinarith
    have hq : n ≤ q := Nat.lt_succ_iff.mp hn
    simp only [hlt, true_or, iff_true]
    split
    · exact hq
    · split <;> omega
  · have hsame : 2 * (q + 1) * b = 2 * (b * q) + b + b := by ring
    rw [hsame]
    split
    · omega
    · split <;> omega
  · have hle : (q + 2) * b ≤ n * b := Nat.mul_le_mul_right b hn
    have hlt : 2 * (b * q + r) + b < 2 * n * b := by nlinarith
    constructor
    · intro h
      exfalso
      split at h
      · omega
      · split at h <;> omega
    · omega

theorem cast_pow_toNat {e : ℤ} (h : 0 ≤ e) : ((Nat.pow 2 e.toNat : ℕ) : ℚ) = 2 ^ e := by
  obtain ⟨k, rfl⟩ := Int.eq_ofNat_of_zero_le h
  rw [Int.toNat_natCast, zpow_natCast, Nat.pow_eq, Nat.cast_pow, Nat.cast_ofNat]

theorem cast_unscale (p q : ℕ) (e : ℤ) :
    ((unscale p q e).1 : ℚ) / (unscale p q e).2 = p / q / 2 ^ e := by
  rw [unscale]
  split
  next hneg =>
    rw [Nat.cast_mul, cast_pow_toNat (by omega), zpow_neg]
    field_simp
  next hpos =>
    rw [Nat.cast_mul, cast_pow_toNat (by omega)]
    field_simp

theorem unscale_pos {p q : ℕ} (hq : 0 < q) (e : ℤ) : 0 < (unscale p q e).2 := by
  rw [unscale]
  split
  · exact hq
  · exact Nat.mul_pos hq (Nat.pow_pos (by decide))

theorem cast_fraction (m : ℕ) (e : ℤ) :
    ((fraction m e).1 : ℚ) / (fraction m e).2 = m * 2 ^ e := by
  rw [fraction]
  split
  next hneg =>
    rw [cast_pow_toNat (by omega), zpow_neg, div_inv_eq_mul]
  next hpos =>
    rw [Nat.cast_mul, cast_pow_toNat (by omega), Nat.cast_one, div_one]

theorem fraction_pos (m : ℕ) (e : ℤ) : 0 < (fraction m e).2 := by
  rw [fraction]
  split
  · exact Nat.pow_pos (by decide)
  · exact Nat.one_pos

/-- The quotient of the powers of two next to two numbers is near to their own. -/
theorem quotient_bounds {p q : ℕ} (hp : 0 < p) (hq : 0 < q) :
    (2 : ℚ) ^ ((p.log2 : ℤ) - q.log2 - 1) < p / q ∧
      (p / q : ℚ) < 2 ^ ((p.log2 : ℤ) - q.log2 + 1) := by
  have hqpos : (0 : ℚ) < q := by exact_mod_cast hq
  have htwo : (2 : ℚ) ≠ 0 := by norm_num
  have hplow : (2 : ℚ) ^ p.log2 ≤ p := by exact_mod_cast Nat.log2_self_le hp.ne'
  have hqlow : (2 : ℚ) ^ q.log2 ≤ q := by exact_mod_cast Nat.log2_self_le hq.ne'
  have hphigh : (p : ℚ) < 2 ^ (p.log2 + 1) := by exact_mod_cast Nat.lt_log2_self
  have hqhigh : (q : ℚ) < 2 ^ (q.log2 + 1) := by exact_mod_cast Nat.lt_log2_self
  constructor
  · rw [lt_div_iff₀ hqpos]
    calc (2 : ℚ) ^ ((p.log2 : ℤ) - q.log2 - 1) * q
        < 2 ^ ((p.log2 : ℤ) - q.log2 - 1) * 2 ^ (q.log2 + 1) := by gcongr
      _ = 2 ^ p.log2 := by
        rw [← zpow_natCast 2 (q.log2 + 1), ← zpow_add₀ htwo, ← zpow_natCast 2 p.log2]
        congr 1
        push_cast
        ring
      _ ≤ p := hplow
  · rw [div_lt_iff₀ hqpos]
    calc (p : ℚ) < 2 ^ (p.log2 + 1) := hphigh
      _ = 2 ^ ((p.log2 : ℤ) - q.log2 + 1) * 2 ^ q.log2 := by
        rw [← zpow_natCast 2 q.log2, ← zpow_add₀ htwo, ← zpow_natCast 2 (p.log2 + 1)]
        congr 1
        push_cast
        ring
      _ ≤ 2 ^ ((p.log2 : ℤ) - q.log2 + 1) * q := by gcongr

theorem two_pow_mul (k : ℕ) (e : ℤ) : (2 : ℚ) ^ k * 2 ^ e = 2 ^ (k + e) := by
  rw [← zpow_natCast, ← zpow_add₀ (by norm_num)]

/-- With the exponent for a fraction its mantissa has 53 bits, or fewer at the least exponent. -/
theorem exponentFor_spec {p q : ℕ} (hp : 0 < p) (hq : 0 < q) :
    leastExponent ≤ exponentFor p q ∧ (p / q : ℚ) < 2 ^ 53 * 2 ^ exponentFor p q ∧
      (exponentFor p q ≠ leastExponent → 2 ^ 52 * 2 ^ exponentFor p q ≤ (p / q : ℚ)) := by
  obtain ⟨hlow, hhigh⟩ := quotient_bounds hp hq
  generalize hE : max ((p.log2 : ℤ) - q.log2 - 53) leastExponent = E
  have hE' : exponentFor p q =
      if (unscale p q E).1 / (unscale p q E).2 < 2 ^ 53 then E else E + 1 := by
    rw [← hE]
    rfl
  have hscaled := cast_unscale p q E
  have hfits : (unscale p q E).1 / (unscale p q E).2 < 2 ^ 53 ↔ (p / q : ℚ) < 2 ^ 53 * 2 ^ E := by
    have hb : (0 : ℚ) < (unscale p q E).2 := by exact_mod_cast unscale_pos hq E
    rw [Nat.div_lt_iff_lt_mul (unscale_pos hq E), ← div_lt_iff₀ (by positivity), ← hscaled,
      div_lt_iff₀ hb]
    norm_cast
  rw [hE', if_congr hfits rfl rfl]
  split
  next hlt =>
    refine ⟨by omega, hlt, fun hne => ?_⟩
    have hexponent : ((52 : ℕ) : ℤ) + E = (p.log2 : ℤ) - q.log2 - 1 := by push_cast; omega
    rw [two_pow_mul, hexponent]
    exact hlow.le
  next hge =>
    refine ⟨by omega, ?_, fun _ => ?_⟩
    · refine hhigh.trans_le ?_
      rw [two_pow_mul]
      exact zpow_le_zpow_right₀ (by norm_num) (by push_cast; omega)
    · have hstep : (2 : ℚ) ^ 52 * 2 ^ (E + 1) = 2 ^ 53 * 2 ^ E := by
        rw [zpow_add_one₀ (by norm_num)]
        ring
      rw [hstep]
      exact not_lt.mp hge

def significand (p q : ℕ) : ℕ :=
  divToEven (unscale p q (exponentFor p q)).1 (unscale p q (exponentFor p q)).2

theorem middle_lt_iff {a b n : ℕ} (hb : 0 < b) :
    ((n : ℚ) - 1 / 2 < a / b ↔ 2 * n * b < 2 * a + b) ∧
      ((n : ℚ) - 1 / 2 = a / b ↔ 2 * n * b = 2 * a + b) := by
  have hbpos : (0 : ℚ) < b := by exact_mod_cast hb
  rw [lt_div_iff₀ hbpos, eq_div_iff hbpos.ne', ← @Nat.cast_lt ℚ, ← @Nat.cast_inj ℚ]
  push_cast
  constructor
  · constructor <;> intro h <;> linarith
  · constructor <;> intro h <;> linarith

theorem roundsTo_significand {p q : ℕ} (hp : 0 < p) (hq : 0 < q) :
    RoundsTo (p / q) (significand p q) (exponentFor p q) where
  least_le := (exponentFor_spec hp hq).1
  lt := (exponentFor_spec hp hq).2.1
  le := (exponentFor_spec hp hq).2.2
  le_iff n := by
    have hb := unscale_pos (p := p) hq (exponentFor p q)
    have hpower : (0 : ℚ) < 2 ^ exponentFor p q := by positivity
    obtain ⟨hlt, heq⟩ := middle_lt_iff (a := (unscale p q (exponentFor p q)).1) (n := n) hb
    rw [significand, le_divToEven hb, ← hlt, ← heq, cast_unscale, lt_div_iff₀ hpower,
      eq_div_iff hpower.ne']

theorem RoundsTo.zero : RoundsTo 0 0 leastExponent where
  least_le := le_rfl
  lt := by positivity
  le h := absurd rfl h
  le_iff n := by
    have hpower : (0 : ℚ) < 2 ^ leastExponent := by positivity
    rcases Nat.eq_zero_or_pos n with rfl | hn
    · have hbelow : ((0 : ℕ) - 1 / 2 : ℚ) * 2 ^ leastExponent < 0 := by
        push_cast
        linarith
      exact iff_of_true le_rfl (.inl hbelow)
    · have hone : (1 : ℚ) ≤ n := by exact_mod_cast hn
      have habove : (0 : ℚ) < (n - 1 / 2) * 2 ^ leastExponent := mul_pos (by linarith) hpower
      refine iff_of_false (by omega) (not_or.mpr ⟨habove.not_gt, fun h => habove.ne' h.1⟩)

section Rounding

variable {x y : ℚ} {m k : ℕ} {e f : ℤ}

theorem carry (h : e < f) : (2 : ℚ) ^ 53 * 2 ^ e ≤ 2 ^ 52 * 2 ^ f := by
  rw [two_pow_mul, two_pow_mul]
  exact zpow_le_zpow_right₀ (by norm_num) (by push_cast; omega)

theorem RoundsTo.le_significand (h : RoundsTo x m e) (he : e ≠ leastExponent) : 2 ^ 52 ≤ m := by
  have hpower : (0 : ℚ) < 2 ^ e := by positivity
  have hx := h.le he
  refine (h.le_iff _).mpr (.inl ?_)
  push_cast
  linarith

theorem RoundsTo.significand_le (h : RoundsTo x m e) : m ≤ 2 ^ 53 := by
  have hpower : (0 : ℚ) < 2 ^ e := by positivity
  have hx := h.lt
  by_contra hm
  have hnext : 2 ^ 53 + 1 ≤ m := by omega
  rw [h.le_iff] at hnext
  push_cast at hnext
  rcases hnext with hnext | hnext
  · linarith
  · linarith [hnext.1]

theorem RoundsTo.mono (hx : RoundsTo x m e) (hy : RoundsTo y k f) (hxy : x ≤ y) :
    (m : ℚ) * 2 ^ e ≤ k * 2 ^ f := by
  have hm : (m : ℚ) ≤ 2 ^ 53 := by exact_mod_cast hx.significand_le
  rcases lt_trichotomy e f with hef | rfl | hef
  · have hk : (2 : ℚ) ^ 52 ≤ k := by
      exact_mod_cast hy.le_significand (by have := hx.least_le; omega)
    calc (m : ℚ) * 2 ^ e ≤ 2 ^ 53 * 2 ^ e := by gcongr
      _ ≤ 2 ^ 52 * 2 ^ f := carry hef
      _ ≤ k * 2 ^ f := by gcongr
  · have hmk : m ≤ k := by
      rw [hy.le_iff]
      rcases (hx.le_iff m).mp le_rfl with hbelow | ⟨hon, heven⟩
      · exact .inl (hbelow.trans_le hxy)
      · rcases hxy.lt_or_eq with hlt | heq
        · exact .inl (hon ▸ hlt)
        · exact .inr ⟨hon.trans heq, heven⟩
    gcongr
  · have hbelow := hx.le (by have := hy.least_le; omega)
    exact absurd ((carry hef).trans (hbelow.trans hxy)) (not_le.mpr hy.lt)

/-- A fraction is rounded to a number or above it if it lies above the middle below the number, or
on it where the number is even. -/
theorem RoundsTo.le_value_iff (h : RoundsTo x m e) (hlow : 2 ^ 52 < k) (hhigh : k ≤ 2 ^ 53)
    (hf : leastExponent ≤ f) : (k : ℚ) * 2 ^ f ≤ m * 2 ^ e ↔
      (k - 1 / 2) * 2 ^ f < x ∨ ((k - 1 / 2) * 2 ^ f = x ∧ k % 2 = 0) := by
  have hpower : (0 : ℚ) < 2 ^ f := by positivity
  have hk : (2 : ℚ) ^ 52 + 1 ≤ k := by exact_mod_cast hlow
  have hk' : (k : ℚ) ≤ 2 ^ 53 := by exact_mod_cast hhigh
  rcases lt_trichotomy e f with hef | rfl | hef
  · -- The fraction lies below all numbers with the exponent.
    have hm : (m : ℚ) ≤ 2 ^ 53 := by exact_mod_cast h.significand_le
    have hvalue : (m : ℚ) * 2 ^ e ≤ 2 ^ 52 * 2 ^ f := le_trans (by gcongr) (carry hef)
    have hx : x < 2 ^ 52 * 2 ^ f := h.lt.trans_le (carry hef)
    have hmiddle : (2 : ℚ) ^ 52 * 2 ^ f < (k - 1 / 2) * 2 ^ f := by gcongr; linarith
    have hnumber : (2 : ℚ) ^ 52 * 2 ^ f < k * 2 ^ f := by gcongr; linarith
    refine iff_of_false (not_le.mpr (hvalue.trans_lt hnumber)) (not_or.mpr ⟨?_, fun hon => ?_⟩)
    · exact (hx.trans hmiddle).not_gt
    · exact (hx.trans hmiddle).ne' hon.1
  · rw [← h.le_iff k, mul_le_mul_iff_left₀ hpower, Nat.cast_le]
  · -- The fraction lies above all numbers with the exponent.
    have he : e ≠ leastExponent := by omega
    have hm : (2 : ℚ) ^ 52 ≤ m := by exact_mod_cast h.le_significand he
    have hnumber : (k : ℚ) * 2 ^ f ≤ 2 ^ 53 * 2 ^ f := by gcongr
    have hvalue : (2 : ℚ) ^ 52 * 2 ^ e ≤ m * 2 ^ e := by gcongr
    have hmiddle : ((k : ℚ) - 1 / 2) * 2 ^ f < k * 2 ^ f := by gcongr; linarith
    exact iff_of_true (hnumber.trans ((carry hef).trans hvalue))
      (.inl (hmiddle.trans_le (hnumber.trans ((carry hef).trans (h.le he)))))

theorem RoundsTo.le_of_lt (h : RoundsTo x m e) (hlow : 2 ^ 52 < k) (hhigh : k ≤ 2 ^ 53)
    (hf : leastExponent ≤ f) (hlt : (m : ℚ) * 2 ^ e < k * 2 ^ f) :
    (m : ℚ) * 2 ^ e ≤ (k - 1) * 2 ^ f := by
  have hpower : (0 : ℚ) < 2 ^ f := by positivity
  have hk : (2 : ℚ) ^ 52 + 1 ≤ k := by exact_mod_cast hlow
  have hk' : (k : ℚ) ≤ 2 ^ 53 := by exact_mod_cast hhigh
  rcases lt_trichotomy e f with hef | rfl | hef
  · have hm : (m : ℚ) ≤ 2 ^ 53 := by exact_mod_cast h.significand_le
    calc (m : ℚ) * 2 ^ e ≤ 2 ^ 53 * 2 ^ e := by gcongr
      _ ≤ 2 ^ 52 * 2 ^ f := carry hef
      _ ≤ (k - 1) * 2 ^ f := by gcongr; linarith
  · have hmk : m < k := by exact_mod_cast lt_of_mul_lt_mul_right hlt hpower.le
    have hmk' : (m : ℚ) + 1 ≤ k := by exact_mod_cast hmk
    gcongr
    linarith
  · have hm : (2 : ℚ) ^ 52 ≤ m := by exact_mod_cast h.le_significand (by omega)
    have hvalue : (2 : ℚ) ^ 52 * 2 ^ e ≤ m * 2 ^ e := by gcongr
    have hnumber : (k : ℚ) * 2 ^ f ≤ 2 ^ 53 * 2 ^ f := by gcongr
    exact absurd hlt (not_lt.mpr (hnumber.trans ((carry hef).trans hvalue)))

theorem RoundsTo.value_le (h : RoundsTo x m e) (hx : 0 ≤ x) : (m : ℚ) * 2 ^ e ≤ 2 * x := by
  have hpower : (0 : ℚ) < 2 ^ e := by positivity
  rcases Nat.eq_zero_or_pos m with rfl | hm
  · rw [Nat.cast_zero, zero_mul]
    linarith
  · have hone : (1 : ℚ) ≤ m := by exact_mod_cast hm
    have hmiddle : ((m : ℚ) - 1 / 2) * 2 ^ e ≤ x := by
      rcases (h.le_iff m).mp le_rfl with hbelow | hon
      exacts [hbelow.le, hon.1.le]
    nlinarith

end Rounding

theorem exponentFor_le {p q : ℕ} (hp : 0 < p) (hq : 0 < q) (hle : p ≤ 2 ^ 53 * q) :
    exponentFor p q ≤ 1 := by
  by_contra hgreat
  have hqpos : (0 : ℚ) < q := by exact_mod_cast hq
  have hbound : (p / q : ℚ) ≤ 2 ^ 53 := by
    rw [div_le_iff₀ hqpos]
    exact_mod_cast hle
  have hlow := (exponentFor_spec hp hq).2.2 (by rw [leastExponent]; omega)
  have hcarry := carry (not_le.mp hgreat)
  rw [zpow_one] at hcarry
  linarith

theorem exists_nearest (negative : Bool) {p q : ℕ} (hq : 0 < q) (hle : p ≤ 2 ^ 53 * q) :
    ∃ m e n f, nearest negative p q = .finite negative n f ∧ RoundsTo (p / q) m e ∧
      (n : ℚ) * 2 ^ f = m * 2 ^ e := by
  rcases Nat.eq_zero_or_pos p with rfl | hp
  · refine ⟨0, leastExponent, 0, leastExponent, rfl, ?_, rfl⟩
    rw [Nat.cast_zero, zero_div]
    exact RoundsTo.zero
  · have hexponent := exponentFor_le hp hq hle
    have hnearest : nearest negative p q =
        if significand p q = 2 ^ 53 then .finite negative (2 ^ 52) (exponentFor p q + 1)
        else .finite negative (significand p q) (exponentFor p q) := by
      have hlow : ¬ greatestExponent < exponentFor p q + 1 := by rw [greatestExponent]; omega
      have hlow' : ¬ greatestExponent < exponentFor p q := by rw [greatestExponent]; omega
      have hdef : nearest negative p q =
          (fun me : ℕ × ℤ =>
            if greatestExponent < me.2 then .infinite negative else .finite negative me.1 me.2)
          (if significand p q = 2 ^ 53 then (2 ^ 52, exponentFor p q + 1)
            else (significand p q, exponentFor p q)) := by
        rw [nearest, if_neg hp.ne']
        rfl
      rw [hdef]
      split_ifs
      · exact if_neg hlow
      · exact if_neg hlow'
    by_cases hcarried : significand p q = 2 ^ 53
    · refine ⟨_, _, _, _, hnearest.trans (if_pos hcarried), roundsTo_significand hp hq, ?_⟩
      rw [hcarried, zpow_add_one₀ (by norm_num)]
      push_cast
      ring
    · exact ⟨_, _, _, _, hnearest.trans (if_neg hcarried), roundsTo_significand hp hq, rfl⟩

end ChangeImpact.Binary64
