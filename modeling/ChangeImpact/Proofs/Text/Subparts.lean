import ChangeImpact.Proofs.Text.Utf8
import Mathlib.Data.List.Infix

/-!
# Bytes that are no UTF-8

Where no written character stands, the bytes up to which one could still follow are taken together
as one invalid part, and a byte with which none begins is a part of its own. So the lenient reading
is told from the written characters alone, and the decoder gives it.
-/

namespace ChangeImpact.Text.Utf8

structure IsInvalid (part rest : Bytes) : Prop where
  nonempty : part ≠ []
  unwritten : ∀ c, ¬ String.utf8EncodeChar c <+: part ++ rest
  begins : part.length = 1 ∨ ∃ c, part <+: String.utf8EncodeChar c
  longest : ∀ longer, longer <+: part ++ rest → (∃ c, longer <+: String.utf8EncodeChar c) →
    longer.length ≤ part.length

/-- The characters where they are written, and the replacement for each invalid part. -/
inductive Lenient : Bytes → List Char → Prop where
  | nil : Lenient [] []
  | written (c : Char) {bs : Bytes} {s : List Char} (h : Lenient bs s) :
      Lenient (String.utf8EncodeChar c ++ bs) (c :: s)
  | invalid {part bs : Bytes} {s : List Char} (hpart : IsInvalid part bs) (h : Lenient bs s) :
      Lenient (part ++ bs) (replacement :: s)

inductive Begun : Bytes → Pending → Prop where
  | lead {n : Nat} (hlow : 0xC2 ≤ n) (hhigh : n < 0xF5) : Begun [UInt8.ofNat n] (lead n)
  | more {taken : Bytes} {p : Pending} {k : Nat} (h : Begun taken p) (hmissing : 1 < p.missing)
      (hk : k < 64) (hlow : p.low.toNat ≤ k + 0x80) (hhigh : k + 0x80 ≤ p.high.toNat) :
      Begun (taken ++ [UInt8.ofNat (k + 0x80)]) ⟨p.missing - 1, 0x80, 0xBF, p.value * 64 + k⟩

theorem missing_lead (n : Nat) : n < 0xE0 ∧ (lead n).missing = 1 ∨
    (0xE0 ≤ n ∧ n < 0xF0) ∧ (lead n).missing = 2 ∨ 0xF0 ≤ n ∧ (lead n).missing = 3 := by
  by_cases h2 : n < 0xE0
  · exact .inl ⟨h2, by rw [lead_two h2]⟩
  by_cases h3 : n < 0xF0
  · exact .inr (.inl ⟨⟨Nat.not_lt.mp h2, h3⟩, (lead_three (Nat.not_lt.mp h2) h3).1⟩)
  · exact .inr (.inr ⟨Nat.not_lt.mp h3, (lead_four (Nat.not_lt.mp h3)).1⟩)

theorem bounds_lead (n : Nat) : 0x80 ≤ (lead n).low.toNat ∧
    (lead n).low.toNat ≤ (lead n).high.toNat ∧ (lead n).high.toNat ≤ 0xBF := by
  by_cases h2 : n < 0xE0
  · rw [lead_two h2]
    exact ⟨by simp, by simp, by simp⟩
  by_cases h3 : n < 0xF0
  · obtain ⟨-, hl, hh, -⟩ := lead_three (Nat.not_lt.mp h2) h3
    rw [hl, hh]
    split <;> split <;> omega
  · obtain ⟨-, hl, hh, -⟩ := lead_four (Nat.not_lt.mp h3)
    rw [hl, hh]
    split <;> split <;> omega

section Begun

variable {taken : Bytes} {p : Pending}

theorem Begun.bounds (h : Begun taken p) : 0x80 ≤ p.low.toNat ∧
    p.low.toNat ≤ p.high.toNat ∧ p.high.toNat ≤ 0xBF := by
  cases h with
  | lead => exact bounds_lead _
  | more => exact ⟨le_rfl, by simp, le_rfl⟩

theorem Begun.length_add_missing (h : Begun taken p) :
    0 < taken.length ∧ taken.length + p.missing ≤ 4 := by
  induction h with
  | @lead n _ _ =>
    have hlead := missing_lead n
    rw [List.length_singleton]
    omega
  | more _ hmissing _ _ _ ih =>
    simp only [List.length_append, List.length_singleton]
    omega

theorem Begun.scan (h : Begun taken p) (r : Bytes) :
    Utf8.scan none (taken ++ r) = Utf8.scan (some p) r := by
  induction h generalizing r with
  | lead hlow hhigh => exact scan_lead hlow hhigh r
  | more _ hmissing hk hlow hhigh ih =>
    rw [List.append_assoc, ih, List.singleton_append, scan_more hmissing hk hlow hhigh]

end Begun

/-- A byte that does not continue a character ends an invalid part, and begins afresh. -/
theorem scan_broken {p : Pending} {b : UInt8} (hb : ¬ (p.low ≤ b ∧ b ≤ p.high)) (r : Bytes) :
    scan (some p) (b :: r) = none :: scan none (b :: r) := by
  rw [scan, step, if_neg hb, scan, step]
  rfl

section Written

theorem toNat_val_ofNat {v : Nat} (h : v < 0xD800 ∨ 0xDFFF < v ∧ v < 0x110000) :
    (Char.ofNat v).val.toNat = v := by
  rw [Char.ofNat, dif_pos h]
  rfl

theorem encode_two {n k : Nat} (hlow : 0xC2 ≤ n) (hhigh : n < 0xE0) (hk : k < 64) :
    String.utf8EncodeChar (Char.ofNat ((n - 0xC0) * 64 + k)) =
      [UInt8.ofNat n, UInt8.ofNat (k + 0x80)] := by
  obtain ⟨v, hv⟩ : ∃ v, (n - 0xC0) * 64 + k = v := ⟨_, rfl⟩
  have h1 : ¬ v ≤ 0x7F := by omega
  have h2 : v ≤ 0x7FF := by omega
  have hfirst : v / 64 % 0x20 + 0xC0 = n := by omega
  have hsecond : v % 0x40 = k := by omega
  have hvalue : (Char.ofNat v).val.toNat = v := toNat_val_ofNat (by omega)
  rw [hv]
  simp only [String.utf8EncodeChar, hvalue]
  rw [if_neg h1, if_pos h2, hfirst, hsecond]

theorem encode_three {n k l : Nat} (hlow : 0xE0 ≤ n) (hhigh : n < 0xF0) (hk : k < 64)
    (hshortest : n = 0xE0 → 0x20 ≤ k) (hsurrogate : n = 0xED → k < 0x20) (hl : l < 64) :
    String.utf8EncodeChar (Char.ofNat (((n - 0xE0) * 64 + k) * 64 + l)) =
      [UInt8.ofNat n, UInt8.ofNat (k + 0x80), UInt8.ofNat (l + 0x80)] := by
  obtain ⟨v, hv⟩ : ∃ v, ((n - 0xE0) * 64 + k) * 64 + l = v := ⟨_, rfl⟩
  have h2 : ¬ v ≤ 0x7FF := by omega
  have h1 : ¬ v ≤ 0x7F := by omega
  have h3 : v ≤ 0xFFFF := by omega
  have hfirst : v / 4096 % 0x10 + 0xE0 = n := by omega
  have hsecond : v / 64 % 0x40 = k := by omega
  have hthird : v % 0x40 = l := by omega
  have hvalue : (Char.ofNat v).val.toNat = v := toNat_val_ofNat (by omega)
  rw [hv]
  simp only [String.utf8EncodeChar, hvalue]
  rw [if_neg h1, if_neg h2, if_pos h3, hfirst, hsecond, hthird]

theorem encode_four {n k l m : Nat} (hlow : 0xF0 ≤ n) (hhigh : n < 0xF5) (hk : k < 64)
    (hshortest : n = 0xF0 → 0x10 ≤ k) (hlast : n = 0xF4 → k < 0x10) (hl : l < 64) (hm : m < 64) :
    String.utf8EncodeChar (Char.ofNat ((((n - 0xF0) * 64 + k) * 64 + l) * 64 + m)) =
      [UInt8.ofNat n, UInt8.ofNat (k + 0x80), UInt8.ofNat (l + 0x80), UInt8.ofNat (m + 0x80)] := by
  obtain ⟨v, hv⟩ : ∃ v, (((n - 0xF0) * 64 + k) * 64 + l) * 64 + m = v := ⟨_, rfl⟩
  have h3 : ¬ v ≤ 0xFFFF := by omega
  have h2 : ¬ v ≤ 0x7FF := by omega
  have h1 : ¬ v ≤ 0x7F := by omega
  have hfirst : v / 262144 % 0x08 + 0xF0 = n := by omega
  have hsecond : v / 4096 % 0x40 = k := by omega
  have hthird : v / 64 % 0x40 = l := by omega
  have hfourth : v % 0x40 = m := by omega
  have hvalue : (Char.ofNat v).val.toNat = v := toNat_val_ofNat (by omega)
  rw [hv]
  simp only [String.utf8EncodeChar, hvalue]
  rw [if_neg h1, if_neg h2, if_neg h3, hfirst, hsecond, hthird, hfourth]

/-- The last byte that is asked for completes a character. -/
theorem Begun.written {taken : Bytes} {p : Pending} {k : Nat} (h : Begun taken p)
    (hmissing : p.missing ≤ 1) (hk : k < 64) (hlow : p.low.toNat ≤ k + 0x80)
    (hhigh : k + 0x80 ≤ p.high.toNat) :
    String.utf8EncodeChar (Char.ofNat (p.value * 64 + k)) =
      taken ++ [UInt8.ofNat (k + 0x80)] := by
  -- How many bytes came before the last one is how many the first one asked for.
  cases h with
  | @lead n hn hn' =>
    have htwo : n < 0xE0 := by
      have hlead := missing_lead n
      omega
    rw [lead_two htwo]
    exact encode_two hn htwo hk
  | @more taken p l h hmore hl hllow hlhigh =>
    cases h with
    | @lead n hn hn' =>
      have hthree : 0xE0 ≤ n ∧ n < 0xF0 := by
        have hlead := missing_lead n
        dsimp only at hmissing
        omega
      obtain ⟨-, hl', hh', hvalue⟩ := lead_three hthree.1 hthree.2
      rw [hl'] at hllow
      rw [hh'] at hlhigh
      rw [hvalue]
      exact encode_three hthree.1 hthree.2 hl (fun heq => by rw [if_pos heq] at hllow; omega)
        (fun heq => by rw [if_pos heq] at hlhigh; omega) hk
    | @more taken p m h hmore' hm hmlow hmhigh =>
      cases h with
      | @lead n hn hn' =>
        have hfour : 0xF0 ≤ n := by
          have hlead := missing_lead n
          dsimp only at hmore
          omega
        obtain ⟨-, hl', hh', hvalue⟩ := lead_four hfour
        rw [hl'] at hmlow
        rw [hh'] at hmhigh
        rw [hvalue]
        exact encode_four hfour hn' hm (fun heq => by rw [if_pos heq] at hmlow; omega)
          (fun heq => by rw [if_pos heq] at hmhigh; omega) hl hk
      | @more taken p m h _ _ _ _ =>
        have hlength := h.length_add_missing
        dsimp only at *
        omega

end Written

theorem exists_bits {p : Pending} {b : UInt8} (hlow : 0x80 ≤ p.low.toNat)
    (hhigh : p.high.toNat ≤ 0xBF) (hb : p.low ≤ b ∧ b ≤ p.high) :
    ∃ k, k < 64 ∧ p.low.toNat ≤ k + 0x80 ∧ k + 0x80 ≤ p.high.toNat ∧
      b = UInt8.ofNat (k + 0x80) := by
  rw [UInt8.le_iff_toNat_le, UInt8.le_iff_toNat_le] at hb
  have hk : b.toNat - 0x80 + 0x80 = b.toNat := by omega
  refine ⟨b.toNat - 0x80, by omega, by omega, by omega, ?_⟩
  rw [hk, UInt8.ofNat_toNat]

theorem Begun.exists_character {taken : Bytes} {p : Pending} (h : Begun taken p) :
    ∃ c, taken <+: String.utf8EncodeChar c := by
  obtain ⟨hlow, hle, hhigh⟩ := h.bounds
  obtain ⟨k, hk, hklow, hkhigh, -⟩ := exists_bits hlow hhigh
    ⟨UInt8.le_iff_toNat_le.mpr le_rfl, UInt8.le_iff_toNat_le.mpr hle⟩
  by_cases hmissing : 1 < p.missing
  · obtain ⟨c, hc⟩ := (h.more hmissing hk hklow hkhigh).exists_character
    exact ⟨c, (List.prefix_append taken _).trans hc⟩
  · exact ⟨_, _, (h.written (Nat.not_lt.mp hmissing) hk hklow hkhigh).symm⟩
termination_by p.missing

theorem not_written_of_scan {bs : Bytes} {out : List (Option Char)}
    (h : scan none bs = none :: out) (c : Char) : ¬ String.utf8EncodeChar c <+: bs := by
  intro hprefix
  obtain ⟨r, rfl⟩ := hprefix
  rw [scan_encodeChar] at h
  cases h

theorem isInvalid_of_scan {part rest : Bytes} (hne : part ≠ [])
    (hbegins : part.length = 1 ∨ ∃ c, part <+: String.utf8EncodeChar c)
    (hscan : scan none (part ++ rest) = none :: scan none rest)
    (hnext : ∀ b ∈ rest.head?, ∀ r, ∃ out, scan none (part ++ b :: r) = none :: out) :
    IsInvalid part rest := by
  refine ⟨hne, not_written_of_scan hscan, hbegins, fun longer hlonger hcharacter => ?_⟩
  by_contra hlength
  rw [Nat.not_le] at hlength
  obtain ⟨more, rfl⟩ : part <+: longer :=
    List.prefix_of_prefix_length_le (List.prefix_append part rest) hlonger (Nat.le_of_lt hlength)
  cases more with
  | nil => simp at hlength
  | cons b more =>
    obtain ⟨r, rfl⟩ := List.prefix_append_right_inj part |>.mp hlonger
    obtain ⟨c, r', hc⟩ := hcharacter
    obtain ⟨out, hout⟩ := hnext b rfl (more ++ r')
    rw [List.append_assoc, List.cons_append] at hc
    exact not_written_of_scan hout c (hc ▸ List.prefix_rfl)

inductive Stands : Bytes → Prop where
  | written (c : Char) (rest : Bytes) : Stands (String.utf8EncodeChar c ++ rest)
  | invalid {part rest : Bytes} (h : IsInvalid part rest)
      (hscan : scan none (part ++ rest) = none :: scan none rest) : Stands (part ++ rest)

theorem Begun.stands {taken : Bytes} {p : Pending} (h : Begun taken p) (r : Bytes) :
    Stands (taken ++ r) := by
  have hne : taken ≠ [] := List.ne_nil_of_length_pos h.length_add_missing.1
  induction r generalizing taken p with
  | nil =>
    have hscan : Utf8.scan none (taken ++ []) = none :: Utf8.scan none [] := by rw [h.scan]; rfl
    exact .invalid (isInvalid_of_scan hne (.inr h.exists_character) hscan (by simp)) hscan
  | cons b r ih =>
    -- A byte that is asked for is taken; any other ends the part and is left for the next one.
    by_cases hb : p.low ≤ b ∧ b ≤ p.high
    · obtain ⟨hlow, -, hhigh⟩ := h.bounds
      obtain ⟨k, hk, hklow, hkhigh, rfl⟩ := exists_bits hlow hhigh hb
      rw [List.append_cons]
      by_cases hmissing : 1 < p.missing
      · exact ih (h.more hmissing hk hklow hkhigh) (by simp)
      · rw [← h.written (Nat.not_lt.mp hmissing) hk hklow hkhigh]
        exact .written _ r
    · have hscan (r' : Bytes) :
          Utf8.scan none (taken ++ b :: r') = none :: Utf8.scan none (b :: r') := by
        rw [h.scan, scan_broken hb]
      refine .invalid (isInvalid_of_scan hne (.inr h.exists_character) (hscan r) ?_) (hscan r)
      intro b' hb' r'
      obtain rfl := Option.some.inj hb'
      exact ⟨_, hscan r'⟩

theorem scan_ascii_byte {b : UInt8} (h : b.toNat < 0x80) :
    [b] = String.utf8EncodeChar (Char.ofNat b.toNat) := by
  have hvalue : (Char.ofNat b.toNat).val.toNat = b.toNat := toNat_val_ofNat (by omega)
  simp only [String.utf8EncodeChar, hvalue]
  rw [if_pos (by omega)]
  exact congrArg (fun n => [n]) (UInt8.ofNat_toNat).symm

theorem stands {bs : Bytes} (h : bs ≠ []) : Stands bs := by
  cases bs with
  | nil => exact absurd rfl h
  | cons b r =>
    by_cases hascii : b.toNat < 0x80
    · have hone : b :: r = String.utf8EncodeChar (Char.ofNat b.toNat) ++ r := by
        rw [← scan_ascii_byte hascii]
        rfl
      rw [hone]
      exact .written _ r
    by_cases hlead : 0xC2 ≤ b.toNat ∧ b.toNat < 0xF5
    · have hbegun := Begun.lead hlead.1 hlead.2
      rw [UInt8.ofNat_toNat] at hbegun
      exact hbegun.stands r
    · have hscan (r' : Bytes) : scan none (b :: r') = none :: scan none r' := by
        have hstart : start b = ([none], none) := by
          unfold start
          simp only [hascii, if_false]
          split
          · rfl
          · repeat rw [if_neg (by omega)]
        rw [scan, step, hstart]
        rfl
      have hpart : IsInvalid [b] r := isInvalid_of_scan (List.cons_ne_nil _ _) (.inl rfl) (hscan r)
        fun b' _ r' => ⟨_, hscan (b' :: r')⟩
      exact .invalid hpart (hscan r)

theorem IsInvalid.append_inj {part part' rest rest' : Bytes} (h : IsInvalid part rest)
    (h' : IsInvalid part' rest') (heq : part ++ rest = part' ++ rest') : rest = rest' := by
  have hle {part part' rest rest' : Bytes} (h : IsInvalid part rest) (h' : IsInvalid part' rest')
      (heq : part ++ rest = part' ++ rest') : part.length ≤ part'.length := by
    rcases h.begins with hone | hcharacter
    · rw [hone]
      exact List.length_pos_of_ne_nil h'.nonempty
    · exact h'.longest part (heq ▸ List.prefix_append part rest) hcharacter
  exact (List.append_inj heq (le_antisymm (hle h h' heq) (hle h' h heq.symm))).2

theorem scan_of_isInvalid {part rest : Bytes} (h : IsInvalid part rest) :
    scan none (part ++ rest) = none :: scan none rest := by
  obtain ⟨bs, hbs⟩ : ∃ bs, part ++ rest = bs := ⟨_, rfl⟩
  have hne : bs ≠ [] := by
    rw [← hbs]
    exact List.append_ne_nil_of_left_ne_nil h.nonempty rest
  have hunwritten := h.unwritten
  rw [hbs] at hunwritten ⊢
  cases stands hne with
  | written c r => exact absurd (List.prefix_append _ r) (hunwritten c)
  | invalid hpart hscan => rw [hscan, h.append_inj hpart hbs]

theorem decodeLossy_encodeChar_append (c : Char) (rest : Bytes) :
    decodeLossy (String.utf8EncodeChar c ++ rest) = c :: decodeLossy rest := by
  rw [decodeLossy, scan_encodeChar]
  rfl

theorem decodeLossy_of_isInvalid {part rest : Bytes} (h : IsInvalid part rest) :
    decodeLossy (part ++ rest) = replacement :: decodeLossy rest := by
  rw [decodeLossy, scan_of_isInvalid h]
  rfl

theorem lenient_decodeLossy (bs : Bytes) : Lenient bs (decodeLossy bs) := by
  induction hlength : bs.length using Nat.strong_induction_on generalizing bs with
  | h n ih =>
    obtain rfl := hlength
    by_cases hne : bs = []
    · rw [hne]
      exact .nil
    · cases stands hne with
      | written c rest =>
        have hlt : rest.length < (String.utf8EncodeChar c ++ rest).length := by
          rw [List.length_append]
          have := List.length_pos_of_ne_nil (@String.utf8EncodeChar_ne_nil c)
          omega
        rw [decodeLossy_encodeChar_append]
        exact .written c (ih _ hlt rest rfl)
      | @invalid part rest hpart _ =>
        have hlt : rest.length < (part ++ rest).length := by
          rw [List.length_append]
          have := List.length_pos_of_ne_nil hpart.nonempty
          omega
        rw [decodeLossy_of_isInvalid hpart]
        exact .invalid hpart (ih _ hlt rest rfl)

/-- The decoder gives the lenient reading, and there is no other. -/
theorem lenient_iff {bs : Bytes} {s : List Char} : Lenient bs s ↔ s = decodeLossy bs := by
  constructor
  · intro h
    induction h with
    | nil => rfl
    | written c _ ih => rw [ih, decodeLossy_encodeChar_append]
    | invalid hpart _ ih => rw [ih, decodeLossy_of_isInvalid hpart]
  · intro h
    rw [h]
    exact lenient_decodeLossy bs

end ChangeImpact.Text.Utf8
