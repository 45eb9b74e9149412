import ChangeImpact.Json.Encoded
import ChangeImpact.Proofs.Json.Reading
import ChangeImpact.Proofs.Text.Utf8

/-!
# JSON written in UTF-8

The bytes of a text without zero characters are taken for UTF-8 where the text begins with a
character of ASCII, and they are decoded as that text: no byte of it is taken for the start of a
surrogate.
-/

namespace ChangeImpact.Json

open Text.Utf8 (Bytes encode)

namespace Encoding

theorem surrogate?_eq_none {b : UInt8} {r : Bytes}
    (h : b = 0xED → ∀ a t, r = a :: t → a < 0xA0) : surrogate? (b :: r) = none := by
  unfold surrogate?
  split
  next a c t heq =>
    obtain ⟨hb, hr⟩ := List.cons.inj heq
    have ha := h hb a (c :: t) hr
    rw [if_neg]
    intro hin
    exact absurd hin.1 (by rw [UInt8.not_le]; exact ha)
  next => rfl

theorem ofUtf8?_eq {bs : Bytes} (h : ∀ t, t <:+ bs → surrogate? t = none) (taken : Bytes) :
    ofUtf8? taken 0 bs =
      (Text.Utf8.decode? (taken.reverse ++ bs)).map fun cs => cs.map CodePoint.char := by
  induction bs generalizing taken with
  | nil => rw [ofUtf8?, List.append_nil]
  | cons b r ih =>
    have hhere : surrogate? (b :: r) = none := h _ (List.suffix_refl _)
    have hrest := ih (fun t ht => h t (ht.trans (List.suffix_cons b r))) (b :: taken)
    have hstep : ofUtf8? taken 0 (b :: r) = ofUtf8? (b :: taken) 0 r := by
      rw [ofUtf8?.eq_def]
      simp only [hhere]
    rw [hstep, hrest, List.reverse_cons, List.append_assoc, List.singleton_append]

theorem surrogate?_of_byte {n : Nat} (hn : n < 256) (h : n ≠ 0xED) (r : Bytes) :
    surrogate? (UInt8.ofNat n :: r) = none := by
  refine surrogate?_eq_none fun heq => absurd (congrArg UInt8.toNat heq) ?_
  rw [Text.Utf8.toNat_ofNat_of_lt hn]
  exact h

theorem surrogate?_of_suffix_bytes (ns : List Nat) {r t : Bytes}
    (hns : ∀ n ∈ ns, n < 256 ∧ n ≠ 0xED) (h : t <:+ ns.map UInt8.ofNat ++ r) :
    t <:+ r ∨ surrogate? t = none := by
  induction ns with
  | nil => exact .inl h
  | cons n ns ih =>
    obtain ⟨⟨hlt, hne⟩, hns⟩ := List.forall_mem_cons.mp hns
    rcases List.suffix_cons_iff.mp h with rfl | h
    · exact .inr (surrogate?_of_byte hlt hne _)
    · exact ih hns h

theorem surrogate?_of_three {v : Nat} (hvalid : v < 0xD800 ∨ 0xDFFF < v) (hhigh : v ≤ 0xFFFF)
    (r : Bytes) : surrogate? (UInt8.ofNat (v / 4096 % 16 + 224) ::
      UInt8.ofNat (v / 64 % 64 + 128) :: r) = none := by
  refine surrogate?_eq_none fun hlead a t hr => ?_
  have hlead' := congrArg UInt8.toNat hlead
  rw [Text.Utf8.toNat_ofNat_of_lt (by omega)] at hlead'
  have hbits : v / 4096 % 16 + 224 = 237 := hlead'
  rw [← (List.cons.inj hr).1, UInt8.lt_iff_toNat_lt, Text.Utf8.toNat_ofNat_of_lt (by omega)]
  simp
  omega

theorem surrogate?_of_suffix {c : Char} {r t : Bytes} (h : t <:+ String.utf8EncodeChar c ++ r) :
    t <:+ r ∨ surrogate? t = none := by
  have hvalid := Text.Utf8.toNat_valid c
  have hv : c.toNat = c.val.toNat := rfl
  rw [hv] at hvalid
  simp only [String.utf8EncodeChar] at h
  generalize c.val.toNat = v at hvalid h
  split at h
  next => exact surrogate?_of_suffix_bytes [v] (by simp; omega) h
  next =>
    split at h
    next =>
      exact surrogate?_of_suffix_bytes [v / 64 % 32 + 192, v % 64 + 128] (by simp; omega) h
    next =>
      split at h
      next hthree =>
        rcases List.suffix_cons_iff.mp h with rfl | h
        · exact .inr (surrogate?_of_three (by omega) hthree _)
        · exact surrogate?_of_suffix_bytes [v / 64 % 64 + 128, v % 64 + 128] (by simp; omega) h
      next =>
        exact surrogate?_of_suffix_bytes [v / 262144 % 8 + 240, v / 4096 % 64 + 128,
          v / 64 % 64 + 128, v % 64 + 128] (by simp; omega) h

theorem surrogate?_of_suffix_encode {s : List Char} {t : Bytes} (h : t <:+ encode s) :
    surrogate? t = none := by
  induction s with
  | nil =>
    have ht : t = [] := List.suffix_nil.mp h
    rw [ht]
    rfl
  | cons c r ih =>
    have hcons : encode (c :: r) = String.utf8EncodeChar c ++ encode r := List.flatMap_cons
    rw [hcons] at h
    rcases surrogate?_of_suffix h with hr | hnone
    · exact ih hr
    · exact hnone

theorem decode?_utf8_encode (s : List Char) : decode? .utf8 (encode s) = some (.ofChars s) := by
  have hread := ofUtf8?_eq (fun _ => surrogate?_of_suffix_encode (s := s)) []
  rw [List.reverse_nil, List.nil_append, Text.Utf8.decode?_encode] at hread
  rw [decode?, hread]
  rfl

theorem ofZeros_of_ne_zero {bs : Bytes} (h : ∀ b ∈ bs, b ≠ 0) : ofZeros bs = .utf8 := by
  unfold ofZeros
  split
  next a b c d t =>
    have ha : a ≠ 0 := h a (by simp)
    have hb : b ≠ 0 := h b (by simp)
    rw [if_neg ha, if_neg hb]
  next a b =>
    have ha : a ≠ 0 := h a (by simp)
    have hb : b ≠ 0 := h b (by simp)
    rw [if_neg ha, if_neg hb]
  next => rfl

theorem ofMark?_of_ascii {b : UInt8} {r : Bytes} (hzero : b ≠ 0) (h : b.toNat < 0x80) :
    ofMark? (b :: r) = none := by
  have hne : b ≠ 0 ∧ b ≠ 0xFF ∧ b ≠ 0xFE ∧ b ≠ 0xEF := by
    refine ⟨hzero, ?_, ?_, ?_⟩ <;> (intro heq; rw [heq] at h; exact absurd h (by decide))
  unfold ofMark?
  split <;> simp_all

theorem detect_encode {c : Char} {s : List Char} (hc : c.toNat < 0x80)
    (h : '\x00' ∉ c :: s) : detect (encode (c :: s)) = (.utf8, encode (c :: s)) := by
  have hzero : ∀ b ∈ encode (c :: s), b ≠ 0 := by
    intro b hb heq
    rw [heq] at hb
    exact h (Text.Utf8.mem_of_mem_encode (by decide) hb)
  have hbyte : encode (c :: s) = UInt8.ofNat c.toNat :: encode s := by
    have hcons : encode (c :: s) = String.utf8EncodeChar c ++ encode s := List.flatMap_cons
    have hv : c.val.toNat ≤ 0x7F := Nat.le_of_lt_succ hc
    rw [hcons, String.utf8EncodeChar, if_pos hv]
    rfl
  have hmark : ofMark? (encode (c :: s)) = none := by
    rw [hbyte]
    refine ofMark?_of_ascii (hzero _ (by rw [hbyte]; simp)) ?_
    rw [Text.Utf8.toNat_ofNat_of_lt (by omega)]
    exact hc
  rw [detect, hmark, ofZeros_of_ne_zero hzero, Option.getD_none]

end Encoding

theorem readBytes_encode {nesting : Nat} {c : Char} {s : List Char} (hc : c.toNat < 0x80)
    (h : '\x00' ∉ c :: s) : readBytes nesting (encode (c :: s)) =
      (readLoose (.lenient nesting) (.ofChars (c :: s))).mapError .unreadable := by
  rw [readBytes, Encoding.detect_encode hc h]
  simp only [Encoding.decode?_utf8_encode]

end ChangeImpact.Json

/-!
## Reading bytes that stand for a value

The encoding of a payload is told by where its zero bytes stand. A text that stands for a value
has no character of zero bytes, so that its UTF-8 is taken for UTF-8.
-/

namespace ChangeImpact.Json

def NoZero (s : List CodePoint) : Prop := ∀ p ∈ s, p ≠ .char '\x00'

instance (s : List CodePoint) : Decidable (NoZero s) :=
  inferInstanceAs (Decidable (∀ p ∈ s, p ≠ .char '\x00'))

@[simp] theorem noZero_nil : NoZero [] := List.forall_mem_nil _

@[simp] theorem noZero_cons {p : CodePoint} {s : List CodePoint} :
    NoZero (p :: s) ↔ p ≠ .char '\x00' ∧ NoZero s := List.forall_mem_cons

@[simp] theorem noZero_append {s t : List CodePoint} :
    NoZero (s ++ t) ↔ NoZero s ∧ NoZero t := List.forall_mem_append

theorem noZero_flatMap {α : Type} {f : α → List CodePoint} {xs : List α}
    (h : ∀ x ∈ xs, NoZero (f x)) : NoZero (xs.flatMap f) := by
  intro p hp
  obtain ⟨x, hx, hpx⟩ := List.mem_flatMap.mp hp
  exact h x hx p hpx

theorem AllSpace.noZero {s : List CodePoint} (h : AllSpace s) : NoZero s := by
  intro p hp heq
  have hspace := h p hp
  rw [heq] at hspace
  exact absurd hspace (by decide)

theorem noZero_hex {digits : List CodePoint} {n : Nat} (h : hexUnit? digits = some (n, [])) :
    NoZero digits := by
  have hvalue : ∀ c k, hexValue? c = some k → c ≠ '\x00' := by
    intro c k hk heq
    have hzero : hexValue? '\x00' = none := by decide
    rw [heq, hzero] at hk
    cases hk
  unfold hexUnit? at h
  split at h
  next a b c d r =>
    simp only [Option.bind_eq_bind, Option.bind_eq_some_iff, Option.pure_def, Option.some.injEq,
      Prod.mk.injEq] at h
    obtain ⟨a', ha, b', hb, c', hc, d', hd, -, rfl⟩ := h
    simp [hvalue _ _ ha, hvalue _ _ hb, hvalue _ _ hc, hvalue _ _ hd]
  next => cases h

theorem Quoted.noZero {ps s : List CodePoint} (h : Quoted ps s) : NoZero s := by
  induction h with
  | nil => exact noZero_nil
  | plain visible quote backslash more ih =>
    refine noZero_cons.mpr ⟨?_, ih⟩
    intro heq
    rw [heq] at visible
    exact absurd visible (by decide)
  | @escape e c ps s known more ih =>
    have hzero : e ≠ '\x00' := by
      intro heq
      have hunknown : escapes.lookup '\x00' = none := by decide
      rw [heq, hunknown] at known
      cases known
    simp [hzero, ih]
  | unit hex alone more ih => simp [noZero_hex hex, ih]
  | pair hex hex' first second more ih => simp [noZero_hex hex, noZero_hex hex', ih]

theorem Item.noZero_whole {i : Item} (spaced : i.IsSpaced) (h : NoZero i.text) :
    NoZero i.whole := by
  simp [Item.whole, spaced.1.noZero, spaced.2.noZero, h]

theorem Entry.noZero_whole {e : Entry} (spaced : e.IsSpaced)
    (quoted : Quoted e.name.points e.nameText) (h : NoZero e.item.text) : NoZero e.whole := by
  obtain ⟨before, behind, item⟩ := spaced
  simp [Entry.whole, Entry.fromName, before.noZero, behind.noZero, quoted.noZero,
    Item.noZero_whole item h]

theorem Spelled.noZero {v : Json} {s : List CodePoint} (h : Spelled v s) : NoZero s := by
  induction h with
  | null => decide
  | bool b => cases b <;> decide
  | int negative n =>
    refine noZero_append.mpr ⟨by cases negative <;> decide, ?_⟩
    intro p hp heq
    have hdigit := isDigit_of_mem_digits hp
    rw [heq] at hdigit
    exact absurd hdigit (by decide)
  | text quoted => simp [quoted.noZero]
  | emptyList space => simp [space.noZero]
  | @list first more spaced spelled ih =>
    have hwhole : ∀ i ∈ first :: more, NoZero i.whole := fun i hi =>
      i.noZero_whole (spaced i hi) (ih i hi)
    have hmore : NoZero (Item.more more) := noZero_flatMap fun i hi => by
      simp [hwhole i (List.mem_cons_of_mem _ hi)]
    simp [hwhole first List.mem_cons_self, hmore]
  | emptyObject space => simp [space.noZero]
  | @object first more spaced names quoted spelled ih =>
    have hwhole : ∀ e ∈ first :: more, NoZero e.whole := fun e he =>
      e.noZero_whole (spaced e he) (quoted e he) (ih e he)
    have hmore : NoZero (Entry.more more) := noZero_flatMap fun e he => by
      simp [hwhole e (List.mem_cons_of_mem _ he)]
    simp [hwhole first List.mem_cons_self, hmore]

/-- Bytes that spell a value in UTF-8, with blanks around it, are read as the value exactly where
the value is within the limits. -/
theorem readBytes_of_spelled {nesting : Nat} {v : Json} {left text right : List Char}
    (h : Spelled v (text.map .char)) (hleft : AllSpace (left.map .char))
    (hright : AllSpace (right.map .char)) :
    readBytes nesting (Text.Utf8.encode (left ++ text ++ right)) = .ok v ↔
      (Dialect.lenient nesting).Takes v := by
  have hzero : NoZero ((left ++ text ++ right).map .char) := by
    simp only [List.map_append, noZero_append]
    exact ⟨⟨hleft.noZero, h.noZero⟩, hright.noZero⟩
  have hascii : ∃ c t, left ++ text ++ right = c :: t ∧ c.toNat < 0x80 := by
    cases left with
    | cons c t =>
      refine ⟨c, _, rfl, ?_⟩
      have hspace := hleft (.char c) List.mem_cons_self
      rcases isSpace_cases hspace with heq | heq | heq | heq <;>
        · rw [CodePoint.char.inj heq]
          decide
    | nil =>
      obtain ⟨p, t, htext, -, -, hp⟩ := h.starts
      cases text with
      | nil => cases htext
      | cons c t' =>
        rw [List.map_cons, List.cons.injEq] at htext
        rw [← htext.1] at hp
        exact ⟨c, _, rfl, hp⟩
  obtain ⟨c, t, hwhole, hc⟩ := hascii
  have hnul : '\x00' ∉ left ++ text ++ right := fun hmem =>
    hzero _ (List.mem_map_of_mem hmem) rfl
  have hread := readLoose_of_spelled h (Dialect.spells_lenient nesting v) hleft hright
  rw [hwhole] at hnul ⊢
  rw [readBytes_encode hc hnul, ← hread, ← hwhole, LooseText.ofChars, List.map_append,
    List.map_append]
  cases hres : readLoose (.lenient nesting)
      ⟨left.map .char ++ text.map .char ++ right.map .char⟩ with
  | ok w => simp [Except.mapError]
  | error e => simp [Except.mapError]

end ChangeImpact.Json
