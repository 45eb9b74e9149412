import ChangeImpact.Proofs.Decimal.Binary64
import ChangeImpact.Proofs.Evidence.Consistent
import Mathlib.Algebra.Order.Floor.Semifield
import Mathlib.Data.Rat.Floor

/-!
# Shares in percent

A share is rounded half up in exact arithmetic, but is computed in floating-point numbers that
round three times. For each number of percent there is a least floating-point share that is rounded
to more; it lies beside the half or on it, and so the shares for which the result is another are
few: `roundsHalfUp_iff`.
-/

namespace ChangeImpact

namespace Evidence

open Binary64

def percentage (x : Binary64) : Int := ((x.times 100).plusHalf.truncate?).getD 0

theorem percent_eq (covered total : Nat) :
    percent covered total = percentage (nearest false covered total) := rfl

/-- The `k` for which, at `k` and a half percent, the least floating-point share that is rounded up
is one unit above the number nearest to the half. -/
def roundedLate : List Nat := [14, 28, 56, 57]

def roundedEarly : List Nat := [0, 2, 8, 11, 33, 40, 46, 67, 68, 79, 80, 92, 93]

def places (k : Nat) : Nat := 53 + (200 / (2 * k + 1)).log2

/-- The mantissa of the least floating-point share that is rounded to more than `k` percent. -/
def leastMantissa (k : Nat) : Nat :=
  divToEven ((2 * k + 1) * Nat.pow 2 (places k)) 200 + roundedLate.count k - roundedEarly.count k

def Passes (k covered total : Nat) : Prop :=
  (2 * leastMantissa k - 1) * total < Nat.pow 2 (places k + 1) * covered ∨
    (2 * leastMantissa k - 1) * total = Nat.pow 2 (places k + 1) * covered ∧
      leastMantissa k % 2 = 0

/-- For some half the share passes the least number that is rounded to more and does not reach the
half, or the other way round. -/
def Misrounded (covered total : Nat) : Prop :=
  ∃ k < 100, ¬ (Passes k covered total ↔ (2 * k + 1) * total ≤ 200 * covered)

theorem leastMantissa_spec : ∀ k < 100, 2 ^ 52 < leastMantissa k ∧ leastMantissa k ≤ 2 ^ 53 ∧
    k < percentage (.finite false (leastMantissa k) (-places k)) ∧
    percentage (.finite false (leastMantissa k - 1) (-places k)) ≤ k := by
  decide +kernel

section Rounding

variable {m : Nat} {e : Int} {k covered total : Nat}

theorem le_of_cast_div_le {p q b : Nat} (hq : 0 < q) (h : (p / q : ℚ) ≤ b) : p ≤ b * q := by
  have hqpos : (0 : ℚ) < q := by exact_mod_cast hq
  rw [div_le_iff₀ hqpos] at h
  exact_mod_cast h

theorem exists_percentage (h : (m : ℚ) * 2 ^ e ≤ 2) : ∃ n f i j,
    RoundsTo (m * 2 ^ e * 100) n f ∧ RoundsTo (n * 2 ^ f + 1 / 2) i j ∧
      percentage (.finite false m e) = ⌊(i * 2 ^ j : ℚ)⌋₊ := by
  have hshare := cast_fraction m e
  have hq := fraction_pos m e
  have hp : (fraction m e).1 ≤ 2 * (fraction m e).2 :=
    le_of_cast_div_le hq (by rw [hshare]; exact_mod_cast h)
  obtain ⟨n, f, n', f', htimes, hrounds, hvalue⟩ :=
    exists_nearest false hq (p := (fraction m e).1 * 100) (by omega)
  rw [Nat.cast_mul, Nat.cast_ofNat, mul_div_right_comm, hshare] at hrounds
  have hhundredfold := cast_fraction n' f'
  have hq' := fraction_pos n' f'
  have hp' : (fraction n' f').1 ≤ 400 * (fraction n' f').2 := by
    refine le_of_cast_div_le hq' ?_
    have hbound := hrounds.value_le (by positivity)
    rw [hhundredfold, hvalue, Nat.cast_ofNat]
    linarith
  obtain ⟨i, j, i', j', hplus, hrounds', hvalue'⟩ :=
    exists_nearest false (Nat.mul_pos two_pos hq')
      (p := 2 * (fraction n' f').1 + (fraction n' f').2) (by omega)
  have hsum : ((2 * (fraction n' f').1 + (fraction n' f').2 : Nat) : ℚ) /
      (2 * (fraction n' f').2 : Nat) = n * 2 ^ f + 1 / 2 := by
    have hpos : (0 : ℚ) < (fraction n' f').2 := by exact_mod_cast hq'
    rw [← hvalue, ← hhundredfold]
    push_cast
    field_simp
  rw [hsum] at hrounds'
  refine ⟨n, f, i, j, hrounds, hrounds', ?_⟩
  have htruncated : percentage (.finite false m e) =
      ((fraction i' j').1 / (fraction i' j').2 : Nat) := by
    change ((nearest false ((fraction m e).1 * 100)
      (fraction m e).2).plusHalf.truncate?.getD 0) = _
    rw [htimes]
    change (((nearest false (2 * (fraction n' f').1 + (fraction n' f').2)
      (2 * (fraction n' f').2)).truncate?).getD 0) = _
    rw [hplus]
    rfl
  rw [htruncated, ← hvalue', ← cast_fraction, Nat.floor_div_eq_div]

theorem percentage_mono {n : Nat} {f : Int} (h : (m : ℚ) * 2 ^ e ≤ n * 2 ^ f)
    (hle : (n : ℚ) * 2 ^ f ≤ 2) :
    percentage (.finite false m e) ≤ percentage (.finite false n f) := by
  obtain ⟨_, _, _, _, htimes, hplus, hm⟩ := exists_percentage (h.trans hle)
  obtain ⟨_, _, _, _, htimes', hplus', hn⟩ := exists_percentage hle
  have hhundredfold := htimes.mono htimes' (by linarith)
  have hhalf := hplus.mono hplus' (by linarith)
  rw [hm, hn]
  exact_mod_cast Nat.floor_mono hhalf

theorem passes_iff (hk : k < 100) (htotal : 0 < total) : Passes k covered total ↔
    ((leastMantissa k : ℚ) - 1 / 2) * 2 ^ (-places k : ℤ) < covered / total ∨
      (((leastMantissa k : ℚ) - 1 / 2) * 2 ^ (-places k : ℤ) = covered / total ∧
        leastMantissa k % 2 = 0) := by
  have htotalpos : (0 : ℚ) < total := by exact_mod_cast htotal
  have hpower : (0 : ℚ) < 2 ^ places k := by positivity
  have hone : 1 ≤ 2 * leastMantissa k := by have := (leastMantissa_spec k hk).1; omega
  rw [Passes, zpow_neg, zpow_natCast, ← div_eq_mul_inv, div_lt_div_iff₀ hpower htotalpos,
    div_eq_div_iff hpower.ne' htotalpos.ne', ← @Nat.cast_lt ℚ, ← @Nat.cast_inj ℚ, Nat.pow_eq,
    pow_succ]
  push_cast [Nat.cast_sub hone]
  have hlt : (2 * (leastMantissa k : ℚ) - 1) * total < 2 ^ places k * 2 * covered ↔
      ((leastMantissa k : ℚ) - 1 / 2) * total < covered * 2 ^ places k := by
    constructor <;> intro h <;> linarith
  have heq : (2 * (leastMantissa k : ℚ) - 1) * total = 2 ^ places k * 2 * covered ↔
      ((leastMantissa k : ℚ) - 1 / 2) * total = covered * 2 ^ places k := by
    constructor <;> intro h <;> linarith
  rw [hlt, heq]

theorem places_le : ∀ k < 100, places k ≤ 60 := by decide +kernel

theorem lt_percent_iff (hk : k < 100) (htotal : 0 < total) (hle : covered ≤ total) :
    (k : Int) < percent covered total ↔ Passes k covered total := by
  obtain ⟨hlow, hhigh, hpercent, hpercent'⟩ := leastMantissa_spec k hk
  have hplaces : leastExponent ≤ -places k := by
    have := places_le k hk
    rw [leastExponent]
    omega
  obtain ⟨m, e, n, f, hnearest, hrounds, hvalue⟩ :=
    exists_nearest false htotal (p := covered) (by omega)
  have hshare : (n : ℚ) * 2 ^ f ≤ 2 := by
    have hone : (covered / total : ℚ) ≤ 1 :=
      div_le_one_of_le₀ (by exact_mod_cast hle) (by positivity)
    have hbound := hrounds.value_le (by positivity)
    rw [hvalue]
    linarith
  rw [percent_eq, hnearest, passes_iff hk htotal, ← hrounds.le_value_iff hlow hhigh hplaces,
    ← hvalue]
  constructor
  · intro h
    by_contra hbelow
    have hpred := hrounds.le_of_lt hlow hhigh hplaces (by rw [← hvalue]; exact not_le.mp hbelow)
    have hcast : ((leastMantissa k - 1 : Nat) : ℚ) = leastMantissa k - 1 := by
      rw [Nat.cast_sub (by omega), Nat.cast_one]
    rw [← hvalue, ← hcast] at hpred
    have hbound : ((leastMantissa k - 1 : Nat) : ℚ) * 2 ^ (-places k : ℤ) ≤ 2 := by
      have hpower : (2 : ℚ) ^ (-places k : ℤ) ≤ 2 ^ (-53 : ℤ) :=
        zpow_le_zpow_right₀ (by norm_num) (by rw [places]; omega)
      have hmantissa : ((leastMantissa k - 1 : Nat) : ℚ) ≤ 2 ^ 53 := by
        exact_mod_cast Nat.le_trans (Nat.sub_le _ _) hhigh
      calc ((leastMantissa k - 1 : Nat) : ℚ) * 2 ^ (-places k : ℤ)
          ≤ 2 ^ 53 * 2 ^ (-53 : ℤ) := by gcongr
        _ ≤ 2 := by norm_num
    exact (h.trans_le (percentage_mono hpred hbound)).not_ge hpercent'
  · intro h
    exact hpercent.trans_le (percentage_mono h hshare)

end Rounding

section Halves

variable {k covered total : Nat}

/-- By how much, in units of `2 ^ -(places k + 1) / 200`, the middle below the least number that is
rounded to more lies above the half. -/
def lateness (k : Nat) : Int :=
  200 * (2 * leastMantissa k - 1) - (2 * k + 1) * Nat.pow 2 (places k + 1)

theorem lateness_spec : ∀ k < 100, (if k ∈ roundedLate then 0 < lateness k else lateness k < 0) ∧
    (lateness k).natAbs * Nat.pow 2 45 < Nat.pow 2 (places k + 1) := by
  decide +kernel

/-- A multiple that is moved by less than the unit keeps its place among the multiples. -/
theorem mul_add_lt_iff {p x y z : Int} (hz : z.natAbs < p) (hne : z ≠ 0) :
    (p * x + z < p * y ↔ if 0 < z then x < y else x ≤ y) ∧ p * x + z ≠ p * y := by
  have hpos : 0 < p := by omega
  rcases Int.lt_or_le x y with hxy | hxy
  · have hstep : p * (x + 1) ≤ p * y := Int.mul_le_mul_of_nonneg_left hxy hpos.le
    rw [Int.mul_add, Int.mul_one] at hstep
    simp only [hxy, hxy.le, ite_self, iff_true]
    omega
  · rcases hxy.eq_or_lt with rfl | hyx
    · rcases Int.lt_or_le 0 z with hup | hdown
      · simp only [hup, if_true, lt_irrefl, iff_false]
        omega
      · simp only [hdown.not_gt, if_false, le_rfl, iff_true]
        omega
    · have hstep : p * (y + 1) ≤ p * x := Int.mul_le_mul_of_nonneg_left hyx hpos.le
      rw [Int.mul_add, Int.mul_one] at hstep
      simp only [hyx.not_gt, hyx.not_ge, ite_self, iff_false]
      omega

/-- Up to so many files a share passes the least number just if it reaches the half, or lies above
it where the half itself is rounded down. -/
theorem passes_iff_half (hk : k < 100) (hpos : 0 < total) (htotal : total ≤ 2 ^ 45) :
    Passes k covered total ↔
      if k ∈ roundedLate then (2 * k + 1) * total < 200 * covered
      else (2 * k + 1) * total ≤ 200 * covered := by
  obtain ⟨hsign, hsmall⟩ := lateness_spec k hk
  have hone : 1 ≤ 2 * leastMantissa k := by have := (leastMantissa_spec k hk).1; omega
  generalize hp : Nat.pow 2 (places k + 1) = p at *
  have hmiddle : (200 : Int) * ((2 * leastMantissa k - 1 : Nat) * total) =
      p * ((2 * k + 1) * total) + lateness k * total := by
    rw [lateness, hp, Int.natCast_sub hone]
    push_cast
    ring
  have hmoved : (lateness k * total).natAbs < (p : Int) := by
    rw [Int.natAbs_mul, Int.natAbs_natCast]
    exact_mod_cast (Nat.mul_le_mul_left _ htotal).trans_lt hsmall
  have htotalpos : (0 : Int) < total := by exact_mod_cast hpos
  have hne : lateness k * total ≠ 0 := by
    refine mul_ne_zero (fun hzero => ?_) htotalpos.ne'
    rw [hzero] at hsign
    split at hsign <;> exact absurd hsign (lt_irrefl 0)
  have hlate : 0 < lateness k * total ↔ k ∈ roundedLate := by
    rw [mul_pos_iff_of_pos_right htotalpos]
    split at hsign
    next hmem => exact iff_of_true hsign hmem
    next hmem => exact iff_of_false hsign.not_gt hmem
  obtain ⟨hlt, hnot⟩ := mul_add_lt_iff (x := (2 * k + 1) * total) (y := 200 * covered) hmoved hne
  rw [← hmiddle, if_congr hlate rfl rfl] at hlt
  rw [← hmiddle] at hnot
  have hscaled : (p : Int) * (200 * covered) = 200 * (p * covered : Nat) := by
    push_cast
    ring
  rw [hscaled, ← Int.natCast_mul] at hlt hnot
  -- The middle is no multiple, so that the even numbers make no difference.
  have hpasses : Passes k covered total ↔
      (200 : Int) * ((2 * leastMantissa k - 1) * total : Nat) < 200 * (p * covered : Nat) := by
    rw [Passes, hp]
    omega
  rw [hpasses, hlt]
  norm_cast

theorem misrounded_iff (hpos : 0 < total) (htotal : total ≤ 2 ^ 45) :
    Misrounded covered total ↔ ∃ k ∈ roundedLate, 200 * covered = (2 * k + 1) * total := by
  have hlate : ∀ k ∈ roundedLate, k < 100 := by decide
  constructor
  · intro h
    obtain ⟨k, hk, hdiffers⟩ := h
    rw [passes_iff_half hk hpos htotal] at hdiffers
    split at hdiffers
    next hmem => exact ⟨k, hmem, by omega⟩
    next => exact absurd Iff.rfl hdiffers
  · intro h
    obtain ⟨k, hmem, hhalf⟩ := h
    refine ⟨k, hlate k hmem, ?_⟩
    rw [passes_iff_half (hlate k hmem) hpos htotal, if_pos hmem]
    omega

end Halves

theorem clamped_eq_iff {n : Nat} {z : Int} (hn : n ≤ 100) :
    min 100 (max 0 z) = (n : Int) ↔ ∀ k : Nat, k < 100 → ((k : Int) < z ↔ k < n) := by
  constructor
  · intro h k hk
    omega
  · intro h
    by_contra hne
    rcases lt_or_gt_of_ne hne with hlt | hgt
    · have := h (min 100 (max 0 z)).toNat (by omega)
      omega
    · have := h n (by omega)
      omega

theorem lt_halfUp_iff {k covered total : Nat} (htotal : 0 < total) :
    k < (200 * covered + total) / (2 * total) ↔ (2 * k + 1) * total ≤ 200 * covered := by
  rw [← Nat.succ_le_iff, Nat.le_div_iff_mul_le (by omega), Nat.succ_eq_add_one]
  have hmul : (k + 1) * (2 * total) = (2 * k + 1) * total + total := by ring
  omega

end Evidence

open Evidence

namespace Repository

variable {r : Repository} {changed : List String}

def coveredPaths (r : Repository) (changed : List String) : List String :=
  changed.eraseDups.filter fun path =>
    (r.consideredTests changed.eraseDups).any (r.hasEvidence · path)

/-- The tests of the change are found, and the share of the files that have one is given in whole
percent, a half rounded up. -/
def RoundsHalfUp (r : Repository) (changed : List String) : Prop :=
  ∃ report, r.findTests changed = .ok report ∧ report.coveragePercent =
    ((200 * (r.coveredPaths changed).length + changed.eraseDups.length) /
      (2 * changed.eraseDups.length) : Nat)

theorem length_coveredPaths (r : Repository) (changed : List String) :
    (coveredBy (r.relatedTo changed.eraseDups)).length = (r.coveredPaths changed).length := by
  refine ((List.perm_ext_iff_of_nodup (nodup_eraseDups _)
    ((nodup_eraseDups changed).filter _)).mpr fun path => ?_).length_eq
  change path ∈ coveredBy (r.relatedTo changed.eraseDups) ↔ path ∈ r.coveredPaths changed
  rw [mem_coveredBy_relatedTo, coveredPaths, List.mem_filter, List.any_eq_true]

theorem coveragePercent_eq (hne : changed ≠ []) : (r.coverageOf changed).coveragePercent =
    min 100 (max 0 (percent (r.coveredPaths changed).length changed.eraseDups.length)) := by
  rw [coverageOf_eq hne, ← length_coveredPaths]
  rfl

theorem clamped_percent_eq_iff {covered total : Nat} (htotal : 0 < total) (hle : covered ≤ total) :
    min 100 (max 0 (percent covered total)) = ((200 * covered + total) / (2 * total) : Nat) ↔
      ¬ Misrounded covered total := by
  have hwhole : (200 * covered + total) / (2 * total) ≤ 100 := by
    rw [← Nat.lt_succ_iff, Nat.div_lt_iff_lt_mul (by omega)]
    omega
  rw [clamped_eq_iff hwhole, Misrounded]
  simp only [not_exists, not_and, not_not]
  refine forall₂_congr fun k hk => ?_
  rw [lt_percent_iff hk htotal hle, lt_halfUp_iff htotal]

/-- Where the tests can be found, the percentage is the share rounded half up just if the share is
not misrounded; up to `2 ^ 45` files only four halves are. -/
theorem roundsHalfUp_iff (r : Repository) (changed : List String) (hne : changed ≠ []) :
    (r.RoundsHalfUp changed ↔ r.coverageFault? changed = none ∧
      ¬ Misrounded (r.coveredPaths changed).length changed.eraseDups.length) ∧
    (changed.eraseDups.length ≤ 2 ^ 45 →
      (Misrounded (r.coveredPaths changed).length changed.eraseDups.length ↔
        ∃ k ∈ roundedLate,
          200 * (r.coveredPaths changed).length = (2 * k + 1) * changed.eraseDups.length)) := by
  have htotal : 0 < changed.eraseDups.length := by
    obtain ⟨path, hpath⟩ := List.exists_mem_of_ne_nil changed hne
    exact List.length_pos_of_mem (List.mem_eraseDups.mpr hpath)
  have hle : (r.coveredPaths changed).length ≤ changed.eraseDups.length :=
    List.length_filter_le _ _
  refine ⟨?_, misrounded_iff htotal⟩
  rw [← clamped_percent_eq_iff htotal hle, ← coveragePercent_eq hne, RoundsHalfUp]
  simp only [findTests, ifNoFault_eq_ok]
  constructor
  · intro h
    obtain ⟨_, ⟨hfault, rfl⟩, hpercent⟩ := h
    exact ⟨hfault, hpercent⟩
  · exact fun h => ⟨_, ⟨h.1, rfl⟩, h.2⟩

theorem roundsHalfUp_iff_sourceAndTest : ["f.go", "f_test.go", "f.go"] ≠ [] ∧
    sourceAndTest.RoundsHalfUp ["f.go", "f_test.go", "f.go"] ∧
    (sourceAndTest.coveredPaths ["f.go", "f_test.go", "f.go"]).length = 1 := by
  have hne : ["f.go", "f_test.go", "f.go"] ≠ [] := List.cons_ne_nil _ _
  have hcovered : (sourceAndTest.coveredPaths ["f.go", "f_test.go", "f.go"]).length = 1 ∧
      ["f.go", "f_test.go", "f.go"].eraseDups.length = 2 ∧
      sourceAndTest.coverageFault? ["f.go", "f_test.go", "f.go"] = none := by decide +kernel
  obtain ⟨hcovered, htotal, hfault⟩ := hcovered
  obtain ⟨hrounds, hfew⟩ := roundsHalfUp_iff sourceAndTest _ hne
  rw [hcovered, htotal] at hfew
  refine ⟨hne, hrounds.mpr ⟨hfault, ?_⟩, hcovered⟩
  rw [hcovered, htotal, hfew (by decide)]
  decide

def testForNamesWithA : Repository :=
  { machine := .usual
    disk := .folder [("p", .folder [("tests", .folder [("a_test.go", .file [])])])]
    root := ⟨.root, ["p"]⟩
    settings := {} }

def twentyThreeOfForty : List String :=
  ["aa.go", "ab.go", "ac.go", "ad.go", "ae.go", "af.go", "ag.go", "ah.go", "ai.go", "aj.go",
    "ak.go", "al.go", "am.go", "an.go", "ao.go", "ap.go", "aq.go", "ar.go", "as.go", "at.go",
    "au.go", "av.go", "aw.go", "bb.go", "bc.go", "bd.go", "be.go", "bf.go", "bg.go", "bh.go",
    "bi.go", "bj.go", "bk.go", "bl.go", "bm.go", "bn.go", "bo.go", "bp.go", "bq.go", "br.go"]

theorem not_roundsHalfUp_twentyThreeOfForty :
    ¬ testForNamesWithA.RoundsHalfUp twentyThreeOfForty := by
  have hcovered : (testForNamesWithA.coveredPaths twentyThreeOfForty).length = 23 := by
    decide +kernel
  have htotal : twentyThreeOfForty.eraseDups.length = 40 := by decide +kernel
  have hcomputed : min 100 (max 0 (percent 23 40)) = 57 := by decide +kernel
  have hne : twentyThreeOfForty ≠ [] := List.cons_ne_nil _ _
  intro h
  obtain ⟨report, hreport, hpercent⟩ := h
  obtain ⟨-, rfl⟩ := ifNoFault_eq_ok.mp hreport
  rw [coveragePercent_eq hne, hcovered, htotal, hcomputed] at hpercent
  exact absurd hpercent (by decide)

end Repository

end ChangeImpact
