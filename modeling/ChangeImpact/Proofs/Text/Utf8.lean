import ChangeImpact.Text.Utf8
import Mathlib.Data.List.Basic

/-!
# Written UTF-8

The bytes of a text are read back as the text, character by character. The bytes of a character
beyond ASCII are all from 128 on, so that a line feed or a zero byte stands for itself only.
-/

namespace ChangeImpact.Text.Utf8

theorem toNat_ofNat_of_lt {n : Nat} (h : n < 256) : (UInt8.ofNat n).toNat = n := by
  rw [UInt8.toNat_ofNat']
  exact Nat.mod_eq_of_lt h

theorem step_continue {p : Pending} {k : Nat} (hk : k < 64) (hlow : p.low.toNat ≤ k + 0x80)
    (hhigh : k + 0x80 ≤ p.high.toNat) : step (some p) (UInt8.ofNat (k + 0x80)) =
      if p.missing ≤ 1 then ([some (Char.ofNat (p.value * 64 + k))], none)
      else ([], some ⟨p.missing - 1, 0x80, 0xBF, p.value * 64 + k⟩) := by
  have hbyte : (UInt8.ofNat (k + 0x80)).toNat = k + 0x80 := toNat_ofNat_of_lt (by omega)
  have hin : p.low ≤ UInt8.ofNat (k + 0x80) ∧ UInt8.ofNat (k + 0x80) ≤ p.high := by
    rw [UInt8.le_iff_toNat_le, UInt8.le_iff_toNat_le, hbyte]
    exact ⟨hlow, hhigh⟩
  simp only [step, hin, and_self, if_true, hbyte, Nat.add_sub_cancel]

theorem scan_last {p : Pending} {k : Nat} (hp : p.missing ≤ 1) (hk : k < 64)
    (hlow : p.low.toNat ≤ k + 0x80) (hhigh : k + 0x80 ≤ p.high.toNat) (r : Bytes) :
    scan (some p) (UInt8.ofNat (k + 0x80) :: r) =
      some (Char.ofNat (p.value * 64 + k)) :: scan none r := by
  rw [scan, step_continue hk hlow hhigh, if_pos hp]
  rfl

theorem scan_more {p : Pending} {k : Nat} (hp : 1 < p.missing) (hk : k < 64)
    (hlow : p.low.toNat ≤ k + 0x80) (hhigh : k + 0x80 ≤ p.high.toNat) (r : Bytes) :
    scan (some p) (UInt8.ofNat (k + 0x80) :: r) =
      scan (some ⟨p.missing - 1, 0x80, 0xBF, p.value * 64 + k⟩) r := by
  rw [scan, step_continue hk hlow hhigh, if_neg (Nat.not_le.mpr hp)]
  rfl

def lead (n : Nat) : Pending :=
  if n < 0xE0 then ⟨1, 0x80, 0xBF, n - 0xC0⟩
  else if n < 0xF0 then
    ⟨2, if n = 0xE0 then 0xA0 else 0x80, if n = 0xED then 0x9F else 0xBF, n - 0xE0⟩
  else ⟨3, if n = 0xF0 then 0x90 else 0x80, if n = 0xF4 then 0x8F else 0xBF, n - 0xF0⟩

theorem scan_lead {n : Nat} (hlow : 0xC2 ≤ n) (hhigh : n < 0xF5) (r : Bytes) :
    scan none (UInt8.ofNat n :: r) = scan (some (lead n)) r := by
  have hbyte : (UInt8.ofNat n).toNat = n := toNat_ofNat_of_lt (by omega)
  have h1 : ¬n < 0x80 := by omega
  have h2 : ¬n < 0xC2 := by omega
  have hstart : start (UInt8.ofNat n) = ([], some (lead n)) := by
    simp only [start, hbyte, h1, h2, hhigh, if_false, if_true, lead]
    split
    · rfl
    · split <;> rfl
  rw [scan, step, hstart]
  rfl

theorem scan_ascii {n : Nat} (h : n ≤ 0x7F) (r : Bytes) :
    scan none (UInt8.ofNat n :: r) = some (Char.ofNat n) :: scan none r := by
  have hbyte : (UInt8.ofNat n).toNat = n := toNat_ofNat_of_lt (by omega)
  have hascii : n < 0x80 := by omega
  rw [scan, step, start]
  simp only [hbyte, hascii, if_true, List.cons_append, List.nil_append]

theorem lead_two {n : Nat} (h : n < 0xE0) : lead n = ⟨1, 0x80, 0xBF, n - 0xC0⟩ := if_pos h

theorem lead_three {n : Nat} (hlow : 0xE0 ≤ n) (hhigh : n < 0xF0) :
    (lead n).missing = 2 ∧ (lead n).low.toNat = (if n = 0xE0 then 0xA0 else 0x80) ∧
      (lead n).high.toNat = (if n = 0xED then 0x9F else 0xBF) ∧ (lead n).value = n - 0xE0 := by
  rw [lead, if_neg (Nat.not_lt.mpr hlow), if_pos hhigh]
  exact ⟨rfl, apply_ite UInt8.toNat _ _ _, apply_ite UInt8.toNat _ _ _, rfl⟩

theorem lead_four {n : Nat} (hlow : 0xF0 ≤ n) :
    (lead n).missing = 3 ∧ (lead n).low.toNat = (if n = 0xF0 then 0x90 else 0x80) ∧
      (lead n).high.toNat = (if n = 0xF4 then 0x8F else 0xBF) ∧ (lead n).value = n - 0xF0 := by
  rw [lead, if_neg (by omega), if_neg (Nat.not_lt.mpr hlow)]
  exact ⟨rfl, apply_ite UInt8.toNat _ _ _, apply_ite UInt8.toNat _ _ _, rfl⟩

theorem toNat_valid (c : Char) : c.toNat < 0xD800 ∨ 0xDFFF < c.toNat ∧ c.toNat < 0x110000 :=
  c.valid

section Lengths

variable {v : Nat} (r : Bytes)

theorem scan_two (hlow : 0x7F < v) (hhigh : v ≤ 0x7FF) :
    scan none (UInt8.ofNat (v / 64 % 0x20 + 0xC0) :: UInt8.ofNat (v % 0x40 + 0x80) :: r) =
      some (Char.ofNat v) :: scan none r := by
  have hvalue : (v / 64 % 0x20 + 0xC0 - 0xC0) * 64 + v % 0x40 = v := by omega
  rw [scan_lead (by omega) (by omega), lead_two (by omega),
    scan_last (Nat.le_refl 1) (by omega) (by simp) (by simp; omega), hvalue]

theorem scan_three (hlow : 0x7FF < v) (hhigh : v ≤ 0xFFFF) (hvalid : v < 0xD800 ∨ 0xDFFF < v) :
    scan none (UInt8.ofNat (v / 4096 % 0x10 + 0xE0) :: UInt8.ofNat (v / 64 % 0x40 + 0x80) ::
      UInt8.ofNat (v % 0x40 + 0x80) :: r) = some (Char.ofNat v) :: scan none r := by
  obtain ⟨hmissing, hfrom, hto, hvalue⟩ :=
    lead_three (n := v / 4096 % 0x10 + 0xE0) (by omega) (by omega)
  have hall : ((v / 4096 % 0x10 + 0xE0 - 0xE0) * 64 + v / 64 % 0x40) * 64 + v % 0x40 = v := by
    omega
  have hsecond : (lead (v / 4096 % 0x10 + 0xE0)).low.toNat ≤ v / 64 % 0x40 + 0x80 ∧
      v / 64 % 0x40 + 0x80 ≤ (lead (v / 4096 % 0x10 + 0xE0)).high.toNat := by
    rw [hfrom, hto]
    constructor <;> split <;> omega
  rw [scan_lead (by omega) (by omega),
    scan_more (by omega) (by omega) hsecond.1 hsecond.2, hmissing, hvalue,
    scan_last (Nat.le_refl 1) (by omega) (by simp) (by simp; omega), hall]

theorem scan_four (hlow : 0xFFFF < v) (hhigh : v < 0x110000) :
    scan none (UInt8.ofNat (v / 262144 % 0x08 + 0xF0) :: UInt8.ofNat (v / 4096 % 0x40 + 0x80) ::
      UInt8.ofNat (v / 64 % 0x40 + 0x80) :: UInt8.ofNat (v % 0x40 + 0x80) :: r) =
      some (Char.ofNat v) :: scan none r := by
  obtain ⟨hmissing, hfrom, hto, hvalue⟩ :=
    lead_four (n := v / 262144 % 0x08 + 0xF0) (by omega)
  have hall : (((v / 262144 % 0x08 + 0xF0 - 0xF0) * 64 + v / 4096 % 0x40) * 64 +
      v / 64 % 0x40) * 64 + v % 0x40 = v := by omega
  have hsecond : (lead (v / 262144 % 0x08 + 0xF0)).low.toNat ≤ v / 4096 % 0x40 + 0x80 ∧
      v / 4096 % 0x40 + 0x80 ≤ (lead (v / 262144 % 0x08 + 0xF0)).high.toNat := by
    rw [hfrom, hto]
    constructor <;> split <;> omega
  rw [scan_lead (by omega) (by omega),
    scan_more (by omega) (by omega) hsecond.1 hsecond.2, hmissing, hvalue,
    scan_more (Nat.lt_succ_self 1) (by omega) (by simp) (by simp; omega),
    scan_last (Nat.le_refl 1) (by omega) (by simp) (by simp; omega), hall]

end Lengths

theorem scan_encodeChar (c : Char) (r : Bytes) :
    scan none (String.utf8EncodeChar c ++ r) = some c :: scan none r := by
  have hvalid := toNat_valid c
  have hc : Char.ofNat c.toNat = c := Char.ofNat_toNat c
  obtain ⟨v, hv⟩ : ∃ v, c.val.toNat = v := ⟨_, rfl⟩
  have hvc : c.toNat = v := hv
  rw [hvc] at hvalid hc
  simp only [String.utf8EncodeChar, hv]
  by_cases h1 : v ≤ 0x7F
  · rw [if_pos h1]
    exact hc ▸ scan_ascii h1 r
  rw [if_neg h1]
  by_cases h2 : v ≤ 0x7FF
  · rw [if_pos h2]
    exact hc ▸ scan_two r (by omega) h2
  rw [if_neg h2]
  by_cases h3 : v ≤ 0xFFFF
  · rw [if_pos h3]
    exact hc ▸ scan_three r (by omega) h3 (by omega)
  · rw [if_neg h3]
    exact hc ▸ scan_four r (by omega) (by omega)

theorem scan_encode (s : List Char) : scan none (encode s) = s.map some := by
  induction s with
  | nil => rfl
  | cons c r ih =>
    have hcons : encode (c :: r) = String.utf8EncodeChar c ++ encode r := List.flatMap_cons
    rw [hcons, scan_encodeChar, ih, List.map_cons]

theorem decode?_encode (s : List Char) : decode? (encode s) = some s := by
  rw [decode?, scan_encode]
  induction s with
  | nil => rfl
  | cons c r ih => simp [ih]

theorem decodeLossy_encode (s : List Char) : decodeLossy (encode s) = s := by
  rw [decodeLossy, scan_encode, List.map_map]
  exact List.map_id'' (fun _ => rfl) s

theorem mem_encodeChar {c : Char} {b : UInt8} (h : b ∈ String.utf8EncodeChar c) :
    b.toNat = c.toNat ∨ 0x80 ≤ b.toNat ∧ 0x80 ≤ c.toNat := by
  have hv : c.toNat = c.val.toNat := rfl
  simp only [String.utf8EncodeChar] at h
  rw [hv]
  by_cases h1 : c.val.toNat ≤ 0x7F
  · rw [if_pos h1, List.mem_singleton] at h
    rw [h, toNat_ofNat_of_lt (by omega)]
    exact .inl rfl
  refine .inr ⟨?_, by omega⟩
  rw [if_neg h1] at h
  split at h
  · simp only [List.mem_cons, List.not_mem_nil, or_false] at h
    rcases h with rfl | rfl <;> rw [toNat_ofNat_of_lt (by omega)] <;> omega
  · split at h
    · simp only [List.mem_cons, List.not_mem_nil, or_false] at h
      rcases h with rfl | rfl | rfl <;> rw [toNat_ofNat_of_lt (by omega)] <;> omega
    · simp only [List.mem_cons, List.not_mem_nil, or_false] at h
      rcases h with rfl | rfl | rfl | rfl <;> rw [toNat_ofNat_of_lt (by omega)] <;> omega

theorem mem_of_mem_encode {s : List Char} {b : UInt8} (hb : b.toNat < 0x80) (h : b ∈ encode s) :
    Char.ofNat b.toNat ∈ s := by
  obtain ⟨c, hc, hbc⟩ := List.mem_flatMap.mp h
  rcases mem_encodeChar hbc with heq | hhigh
  · rw [heq, Char.ofNat_toNat]
    exact hc
  · omega

@[simp] theorem encode_nil : encode [] = [] := rfl

@[simp] theorem encode_append (s t : List Char) : encode (s ++ t) = encode s ++ encode t :=
  List.flatMap_append

theorem encode_ne_nil {s : List Char} (h : s ≠ []) : encode s ≠ [] := by
  cases s with
  | nil => exact absurd rfl h
  | cons c r =>
    intro hnil
    have hc : String.utf8EncodeChar c ++ encode r = [] := hnil
    exact absurd (List.append_eq_nil_iff.mp hc).1 String.utf8EncodeChar_ne_nil

end ChangeImpact.Text.Utf8
