import ChangeImpact.Proofs.Data.Results
import ChangeImpact.Proofs.Json.Checking

/-!
# Values that a text can spell

In a spellable value no text has a high surrogate directly before a low one, and every integer has
few enough digits to be read. Whatever is read of an ordinary text is spellable, and what a check
makes of a spellable value has no other texts and no longer integers.
-/

namespace ChangeImpact.Json

open Checked

inductive IsSpellable : Json → Prop
  | null : IsSpellable .null
  | bool (b : Bool) : IsSpellable (.bool b)
  | int {n : Int} (readable : Text.IsReadable n.natAbs) : IsSpellable (.int n)
  | real (x : Binary64) : IsSpellable (.real x)
  | text {s : LooseText} (unpaired : Unpaired s.points) : IsSpellable (.text s)
  | list {xs : List Json} (items : ∀ x ∈ xs, IsSpellable x) : IsSpellable (.list xs)
  | object {fields : Fields} (items : ∀ f ∈ fields, IsSpellable f.2) :
      IsSpellable (.object fields)

section Shapes

@[simp] theorem isSpellable_null : IsSpellable .null := .null

@[simp] theorem isSpellable_bool (b : Bool) : IsSpellable (.bool b) := .bool b

theorem isSpellable_int {n : Int} : IsSpellable (.int n) ↔ Text.IsReadable n.natAbs :=
  ⟨fun | .int readable => readable, .int⟩

theorem isSpellable_text {s : LooseText} : IsSpellable (.text s) ↔ Unpaired s.points :=
  ⟨fun | .text unpaired => unpaired, .text⟩

theorem isSpellable_object {fields : Fields} :
    IsSpellable (.object fields) ↔ ∀ f ∈ fields, IsSpellable f.2 :=
  ⟨fun | .object items => items, .object⟩

end Shapes

section Integers

theorem isReadable_of_plain {s : List Char} {n : Int} (h : Spelling.plain s = .ok n) :
    Text.IsReadable n.natAbs := by
  unfold Spelling.plain at h
  extract_lets negative body digits isWhole value at h
  have hvalue : value < Nat.pow 10 digits.length := by
    have hdigits : ∀ c ∈ digits, c.isDigit = true := fun c hc => List.mem_takeWhile_imp hc
    have hlt := Text.ofDigits_lt (List.forall_mem_map.mpr fun c hc => Text.digit_lt (hdigits c hc))
    rwa [List.length_map] at hlt
  have hlimit : Spelling.lengthLimit = Text.digitLimit := rfl
  split_ifs at h
  · exact Except.ok.inj h ▸ Text.isReadable_of_le_one (Nat.zero_le 1)
  all_goals
    rw [← Except.ok.inj h, Text.natAbs_signed]
    exact Text.isReadable_of_lt hvalue (by omega)

theorem isReadable_of_integer {s : List Char} {n : Int} (h : Spelling.integer s = .ok n) :
    Text.IsReadable n.natAbs := by
  rw [Spelling.integer] at h
  split at h
  · split at h
    · exact isReadable_of_plain h
    · cases h
  · exact isReadable_of_plain h

theorem isReadable_of_isInWord {n : Int} (h : isInWord n = true) : Text.IsReadable n.natAbs := by
  have hword : Int.pow 2 63 < Nat.pow 10 19 := by decide
  have hbounds : -Int.pow 2 63 < n ∧ n < Int.pow 2 63 := by simpa [isInWord] using h
  exact Text.isReadable_of_lt (k := 19) (by omega) (by decide)

end Integers

theorem mem_put {name : LooseText} {v : Json} {fields : Fields} {f : LooseText × Json}
    (h : f ∈ put name v fields) : f.2 = v ∨ f ∈ fields := by
  induction fields with
  | nil =>
    rw [List.mem_singleton.mp h]
    exact .inl rfl
  | cons g r ih =>
    rw [put] at h
    split at h
    all_goals rcases List.mem_cons.mp h with rfl | hr
    · exact .inl rfl
    · exact .inr (List.mem_cons_of_mem g hr)
    · exact .inr List.mem_cons_self
    · exact (ih hr).imp_right (List.mem_cons_of_mem g)

section Read

variable {d : Dialect} {n m room : Nat} {s r ps : List CodePoint} {p : CodePoint}

def NoSurrogates (s : List CodePoint) : Prop := ∀ p ∈ s, p.isSurrogate = false

theorem NoSurrogates.mono (h : NoSurrogates s) (hr : r ⊆ s) : NoSurrogates r :=
  fun p hp => h p (hr hp)

theorem isLow_char (c : Char) : isLow c.toNat = false := by
  have hvalid := Text.Utf8.toNat_valid c
  simp only [isLow, Bool.and_eq_false_iff, decide_eq_false_iff_not]
  omega

theorem toNat_ofNat_or (n : Nat) :
    (CodePoint.ofNat n).toNat = n ∨ ∃ c, CodePoint.ofNat n = .char c := by
  rw [CodePoint.ofNat]
  split
  next h => exact .inl (Nat.add_sub_cancel' h.1)
  next => exact .inr ⟨_, rfl⟩

theorem isHigh_of_ofNat (h : isHigh (CodePoint.ofNat n).toNat = true) : isHigh n = true := by
  rcases toNat_ofNat_or n with heq | ⟨c, hc⟩
  · rwa [heq] at h
  · rw [hc, CodePoint.toNat, isHigh_char] at h
    cases h

theorem isLow_of_ofNat (h : isLow (CodePoint.ofNat n).toNat = true) : isLow n = true := by
  rcases toNat_ofNat_or n with heq | ⟨c, hc⟩
  · rwa [heq] at h
  · rw [hc, CodePoint.toNat, isLow_char] at h
    cases h

theorem single?_eq_some (h : single? d n = some p) : p = .ofNat n := by
  rw [single?] at h
  split at h
  · cases h
  · exact (Option.some.inj h).symm

theorem hexUnit?_subset (h : hexUnit? s = some (n, r)) : r ⊆ s := by
  unfold hexUnit? at h
  split at h
  next a b c d t =>
    simp only [Option.bind_eq_bind, Option.bind_eq_some_iff, Option.pure_def, Option.some.injEq,
      Prod.mk.injEq] at h
    obtain ⟨_, -, _, -, _, -, _, -, -, rfl⟩ := h
    intro q hq
    simp [hq]
  next => cases h

theorem startsWithLow_eq (hex : hexUnit? s = some (n, r)) :
    startsWithLow (.char '\\' :: .char 'u' :: s) = isLow n := by
  rw [startsWithLow, hex, Option.any_some]

theorem startsWithLow_eq_false (h : ∀ t, r ≠ .char '\\' :: .char 'u' :: t) :
    startsWithLow r = false := by
  unfold startsWithLow
  split
  next t => exact absurd rfl (h t)
  next => rfl

theorem not_half_of_le (h : 0x10000 ≤ n) : isHigh n = false ∧ isLow n = false := by
  simp only [isHigh, isLow, Bool.and_eq_false_iff, decide_eq_false_iff_not]
  omega

/-- A high surrogate is left by itself only where no low one follows. -/
theorem of_escapedUnit? (h : escapedUnit? d s = some (p, r)) : r ⊆ s ∧
    (isHigh p.toNat = true → startsWithLow r = false) ∧
      (isLow p.toNat = true → startsWithLow (.char '\\' :: .char 'u' :: s) = true) := by
  rw [escapedUnit?, Option.bind_eq_bind, Option.bind_eq_some_iff] at h
  obtain ⟨⟨n, r'⟩, hex, h⟩ := h
  have hsub := hexUnit?_subset hex
  rw [startsWithLow_eq hex]
  dsimp only at h
  split at h
  next r2 =>
    split at h
    next hhigh =>
      simp only [Option.bind_eq_bind, Option.bind_eq_some_iff] at h
      obtain ⟨⟨m, r3⟩, hex', h⟩ := h
      split at h
      next hlow =>
        obtain ⟨rfl, rfl⟩ := Prod.mk.inj (Option.some.inj h)
        have hbeyond := not_half_of_le
          (n := 0x10000 + (n - 0xD800) * 0x400 + (m - 0xDC00)) (by omega)
        refine ⟨fun q hq => hsub ?_, fun h => ?_, fun h => ?_⟩
        · exact List.mem_cons_of_mem _ (List.mem_cons_of_mem _ (hexUnit?_subset hex' hq))
        · exact absurd (hbeyond.1.symm.trans (isHigh_of_ofNat h)) Bool.false_ne_true
        · exact absurd (hbeyond.2.symm.trans (isLow_of_ofNat h)) Bool.false_ne_true
      next hlow =>
        obtain ⟨q, hq, h⟩ := Option.bind_eq_some_iff.mp h
        obtain ⟨rfl, rfl⟩ := Prod.mk.inj (Option.some.inj h)
        rw [single?_eq_some hq, startsWithLow_eq hex']
        exact ⟨hsub, fun _ => Bool.eq_false_iff.mpr hlow, isLow_of_ofNat⟩
    next hhigh =>
      simp only [Option.bind_eq_bind, Option.bind_eq_some_iff] at h
      obtain ⟨q, hq, h⟩ := h
      obtain ⟨rfl, rfl⟩ := Prod.mk.inj (Option.some.inj h)
      rw [single?_eq_some hq]
      exact ⟨hsub, fun h => absurd (isHigh_of_ofNat h) hhigh, isLow_of_ofNat⟩
  next hother =>
    simp only [Option.bind_eq_bind, Option.bind_eq_some_iff] at h
    obtain ⟨q, hq, h⟩ := h
    obtain ⟨rfl, rfl⟩ := Prod.mk.inj (Option.some.inj h)
    rw [single?_eq_some hq]
    exact ⟨hsub, fun _ => startsWithLow_eq_false hother, isLow_of_ofNat⟩

theorem not_half_of_not_isSurrogate (h : p.isSurrogate = false) :
    isHigh p.toNat = false ∧ isLow p.toNat = false := by
  cases p with
  | char c => exact ⟨isHigh_char c, isLow_char c⟩
  | surrogate n => cases h

structure ReadsUnpaired (s ps r : List CodePoint) : Prop where
  rest : r ⊆ s
  unpaired : Unpaired ps
  head : ∀ p ∈ ps.head?, isLow p.toNat = true → startsWithLow s = true

theorem ReadsUnpaired.cons {t : List CodePoint} (h : ReadsUnpaired t ps r) (hsub : t ⊆ s)
    (high : isHigh p.toNat = true → startsWithLow t = false)
    (low : isLow p.toNat = true → startsWithLow s = true) : ReadsUnpaired s (p :: ps) r where
  rest := fun q hq => hsub (h.rest hq)
  unpaired := by
    refine List.isChain_cons.mpr ⟨fun q hq hpair => ?_, h.unpaired⟩
    exact Bool.false_ne_true ((high hpair.1).symm.trans (h.head q hq hpair.2))
  head := fun q hq => by
    obtain rfl : p = q := by simpa using hq
    exact low

theorem ReadsUnpaired.cons_of_not_isSurrogate {t : List CodePoint} (h : ReadsUnpaired t ps r)
    (hsub : t ⊆ s) (hp : p.isSurrogate = false) : ReadsUnpaired s (p :: ps) r := by
  obtain ⟨hhigh, hlow⟩ := not_half_of_not_isSurrogate hp
  refine h.cons hsub (fun h => ?_) (fun h => ?_)
  · exact absurd (hhigh.symm.trans h) Bool.false_ne_true
  · exact absurd (hlow.symm.trans h) Bool.false_ne_true

theorem readQuoted_unpaired (hs : NoSurrogates s) (h : readQuoted d n s = .ok (ps, r)) :
    ReadsUnpaired s ps r := by
  fun_induction readQuoted d n s generalizing ps r with
  | case1 => cases h
  | case2 => cases h
  | case3 n t =>
    obtain ⟨rfl, rfl⟩ := Prod.mk.inj (Except.ok.inj h)
    exact ⟨List.subset_cons_self _ _, .nil, fun p hp => by cases hp⟩
  | case4 n t p t' hunit ih =>
    obtain ⟨ps', hmore, rfl⟩ := map_fst_eq_ok.mp h
    obtain ⟨hsub, hhigh, hlow⟩ := of_escapedUnit? hunit
    have hsub' : t' ⊆ .char '\\' :: .char 'u' :: t := fun q hq =>
      List.mem_cons_of_mem _ (List.mem_cons_of_mem _ (hsub hq))
    exact (ih (hs.mono hsub') hmore).cons hsub' hhigh hlow
  | case5 => cases h
  | case6 n e t _ c _ ih =>
    obtain ⟨ps', hmore, rfl⟩ := map_fst_eq_ok.mp h
    have hsub : t ⊆ .char '\\' :: .char e :: t := fun q hq =>
      List.mem_cons_of_mem _ (List.mem_cons_of_mem _ hq)
    exact (ih (hs.mono hsub) hmore).cons_of_not_isSurrogate hsub rfl
  | case7 => cases h
  | case8 => cases h
  | case9 n p t _ _ _ _ ih =>
    obtain ⟨ps', hmore, rfl⟩ := map_fst_eq_ok.mp h
    have hsub : t ⊆ p :: t := List.subset_cons_self p t
    exact (ih (hs.mono hsub) hmore).cons_of_not_isSurrogate hsub (hs p List.mem_cons_self)

theorem readLiteral?_spellable {v : Json} (h : readLiteral? s = some (v, r)) :
    IsSpellable v ∧ r ⊆ s := by
  obtain ⟨⟨word, w⟩, hw, h⟩ := List.exists_of_findSome?_eq_some h
  dsimp only at h
  split at h
  next =>
    obtain ⟨rfl, rfl⟩ := Prod.mk.inj (Option.some.inj h)
    have hall : ∀ l ∈ literals, IsSpellable l.2 := by
      simp only [literals, List.forall_mem_map, List.forall_mem_cons]
      exact ⟨.null, .bool true, .bool false, .real _, .real _, .real _, List.forall_mem_nil _⟩
    exact ⟨hall _ hw, List.drop_subset _ _⟩
  next => cases h

theorem readFraction_subset (s : List CodePoint) : (readFraction s).2 ⊆ s := by
  unfold readFraction
  split
  next r =>
    split
    next => exact fun q hq => hq
    next => exact fun q hq => List.mem_cons_of_mem _ ((List.dropWhile_sublist _).subset hq)
  next => exact fun q hq => hq

theorem cutSign_subset (s : List CodePoint) : (cutSign s).2 ⊆ s := by
  unfold cutSign
  split
  next => exact List.subset_cons_self _ _
  next => exact List.subset_cons_self _ _
  next => exact fun q hq => hq

theorem readExponent_subset (s : List CodePoint) : (readExponent s).2 ⊆ s := by
  unfold readExponent
  split
  next e r =>
    split
    next =>
      dsimp only
      split
      next => exact fun q hq => hq
      next =>
        exact fun q hq => List.mem_cons_of_mem _
          (cutSign_subset r ((List.dropWhile_sublist _).subset hq))
    next => exact fun q hq => hq
  next => exact fun q hq => hq

theorem natOf_lt {ds : List Char} (h : ∀ c ∈ ds, c.isDigit = true) :
    natOf ds < Nat.pow 10 ds.length := by
  have hlt := Text.ofDigits_lt (List.forall_mem_map.mpr fun c hc => Text.digit_lt (h c hc))
  rwa [List.length_map, Text.ofDigits, List.foldl_map] at hlt

theorem isDigit_of_mem_cutDigits {c : Char} (h : c ∈ (cutDigits s).1) : c.isDigit = true := by
  obtain ⟨p, hp, rfl⟩ := List.mem_map.mp h
  have hdigit : isDigit p = true := List.mem_takeWhile_imp hp
  cases p with
  | char c => exact hdigit
  | surrogate n => cases hdigit

theorem readNumber_spellable {negative : Bool} {v : Json}
    (h : readNumber d negative s = .ok (v, r)) : IsSpellable v ∧ r ⊆ s := by
  rw [readNumber.eq_def] at h
  split at h
  next whole t hcut =>
    have hwhole : (∀ c ∈ whole, c.isDigit = true) ∧ t ⊆ s := by
      split at hcut
      next t' =>
        obtain ⟨rfl, rfl⟩ := Prod.mk.inj hcut
        exact ⟨List.forall_mem_singleton.mpr rfl, List.subset_cons_self _ _⟩
      next =>
        have hboth : (cutDigits s).1 = whole ∧ (cutDigits s).2 = t := by rw [hcut]; exact ⟨rfl, rfl⟩
        obtain ⟨rfl, rfl⟩ := hboth
        exact ⟨fun c => isDigit_of_mem_cutDigits, (List.dropWhile_sublist _).subset⟩
    have hrest : (readExponent (readFraction t).2).2 ⊆ s := fun q hq =>
      hwhole.2 (readFraction_subset _ (readExponent_subset _ hq))
    dsimp only at h
    split_ifs at h with hempty hlong hinteger
    · obtain ⟨rfl, rfl⟩ := Prod.mk.inj (Except.ok.inj h)
      refine ⟨.int ?_, hrest⟩
      rw [Text.natAbs_signed]
      refine Text.isReadable_of_lt (natOf_lt hwhole.1) ?_
      rw [hinteger] at hlong
      simpa [isOverlong] using hlong
    · obtain ⟨rfl, rfl⟩ := Prod.mk.inj (Except.ok.inj h)
      exact ⟨.real _, hrest⟩

theorem skipSpace_subset (h : r ⊆ s) : skipSpace r ⊆ s := fun _ hq =>
  h ((List.dropWhile_sublist _).subset hq)

theorem subset_of_skipSpace {t : List CodePoint} (hskip : skipSpace r = p :: t) (h : r ⊆ s) :
    t ⊆ s := fun _ hq =>
  skipSpace_subset h (hskip ▸ List.mem_cons_of_mem p hq)

structure ReadsSpellable (d : Dialect) (n : Nat) : Prop where
  value : ∀ {room s v r}, NoSurrogates s → readValue d n room s = .ok (v, r) →
    IsSpellable v ∧ r ⊆ s
  items : ∀ {room s xs r}, NoSurrogates s → readItems d n room s = .ok (xs, r) →
    (∀ x ∈ xs, IsSpellable x) ∧ r ⊆ s
  fields : ∀ {room done s fs r}, NoSurrogates s → (∀ f ∈ done, IsSpellable f.2) →
    readFields d n room done s = .ok (fs, r) → (∀ f ∈ fs, IsSpellable f.2) ∧ r ⊆ s

theorem ReadsSpellable.readValue (ih : ReadsSpellable d n) {v : Json} (hs : NoSurrogates s)
    (h : Json.readValue d (n + 1) room s = .ok (v, r)) : IsSpellable v ∧ r ⊆ s := by
  rw [Json.readValue.eq_def] at h
  dsimp only at h
  split at h
  next found hfound =>
    obtain rfl := Except.ok.inj h
    exact readLiteral?_spellable hfound
  next hnone =>
    clear hnone
    split at h
    next t =>
      obtain ⟨ps, hread, rfl⟩ := (map_fst_eq_ok (f := fun ps => Json.text ⟨ps⟩)).mp h
      have hquoted := readQuoted_unpaired (hs.mono (List.subset_cons_self _ t)) hread
      exact ⟨.text hquoted.unpaired, fun q hq => List.mem_cons_of_mem _ (hquoted.rest hq)⟩
    next t =>
      have hsub : t ⊆ .char '[' :: t := List.subset_cons_self _ t
      split at h
      next => cases h
      next =>
        split at h
        next t' hclose =>
          obtain ⟨rfl, rfl⟩ := Prod.mk.inj (Except.ok.inj h)
          exact ⟨.list (List.forall_mem_nil _), subset_of_skipSpace hclose hsub⟩
        next =>
          split at h
          next => cases h
          next =>
            obtain ⟨xs, hread, rfl⟩ := map_fst_eq_ok.mp h
            obtain ⟨hxs, hrest⟩ := ih.items (hs.mono (skipSpace_subset hsub)) hread
            exact ⟨.list hxs, fun q hq => skipSpace_subset hsub (hrest hq)⟩
    next t =>
      have hsub : t ⊆ .char '\x7b' :: t := List.subset_cons_self _ t
      split at h
      next => cases h
      next =>
        split at h
        next t' hclose =>
          obtain ⟨rfl, rfl⟩ := Prod.mk.inj (Except.ok.inj h)
          exact ⟨.object (List.forall_mem_nil _), subset_of_skipSpace hclose hsub⟩
        next =>
          split at h
          next => cases h
          next =>
            obtain ⟨fs, hread, rfl⟩ := map_fst_eq_ok.mp h
            obtain ⟨hfs, hrest⟩ :=
              ih.fields (hs.mono (skipSpace_subset hsub)) (List.forall_mem_nil _) hread
            exact ⟨.object hfs, fun q hq => skipSpace_subset hsub (hrest hq)⟩
    next t =>
      obtain ⟨hv, hrest⟩ := readNumber_spellable h
      exact ⟨hv, fun q hq => List.mem_cons_of_mem _ (hrest hq)⟩
    next => exact readNumber_spellable h

theorem ReadsSpellable.readItems (ih : ReadsSpellable d n) {xs : List Json} (hs : NoSurrogates s)
    (h : Json.readItems d (n + 1) room s = .ok (xs, r)) :
    (∀ x ∈ xs, IsSpellable x) ∧ r ⊆ s := by
  rw [Json.readItems.eq_def] at h
  dsimp only at h
  split at h
  next => cases h
  next x t hx =>
    obtain ⟨hspellable, hsub⟩ := ih.value hs hx
    split at h
    next t' hcomma =>
      obtain ⟨xs', hread, rfl⟩ := map_fst_eq_ok.mp h
      have hnext : skipSpace t' ⊆ s := skipSpace_subset (subset_of_skipSpace hcomma hsub)
      obtain ⟨hmore, hrest⟩ := ih.items (hs.mono hnext) hread
      exact ⟨List.forall_mem_cons.mpr ⟨hspellable, hmore⟩, fun q hq => hnext (hrest hq)⟩
    next t' hclose =>
      obtain ⟨rfl, rfl⟩ := Prod.mk.inj (Except.ok.inj h)
      exact ⟨List.forall_mem_singleton.mpr hspellable, subset_of_skipSpace hclose hsub⟩
    next => cases h

theorem ReadsSpellable.readFields (ih : ReadsSpellable d n) {done fs : Fields}
    (hs : NoSurrogates s) (hdone : ∀ f ∈ done, IsSpellable f.2)
    (h : Json.readFields d (n + 1) room done s = .ok (fs, r)) :
    (∀ f ∈ fs, IsSpellable f.2) ∧ r ⊆ s := by
  rw [Json.readFields.eq_def] at h
  dsimp only at h
  split at h
  next t =>
    split at h
    next => cases h
    next name t₁ hname =>
      have hquoted := readQuoted_unpaired (hs.mono (List.subset_cons_self _ t)) hname
      have hbehind : t₁ ⊆ .char '"' :: t := fun q hq => List.mem_cons_of_mem _ (hquoted.rest hq)
      split at h
      next t₂ hcolon =>
        have hvalue : skipSpace t₂ ⊆ .char '"' :: t :=
          skipSpace_subset (subset_of_skipSpace hcolon hbehind)
        split at h
        next => cases h
        next v t₃ hv =>
          obtain ⟨hspellable, hrest⟩ := ih.value (hs.mono hvalue) hv
          have hend : t₃ ⊆ .char '"' :: t := fun q hq => hvalue (hrest hq)
          have hdone' : ∀ f ∈ put ⟨name⟩ v done, IsSpellable f.2 := fun f hf => by
            rcases mem_put hf with heq | hf
            · exact heq ▸ hspellable
            · exact hdone f hf
          split at h
          next t₄ hcomma =>
            have hnext : skipSpace t₄ ⊆ .char '"' :: t :=
              skipSpace_subset (subset_of_skipSpace hcomma hend)
            obtain ⟨hfs, hrest⟩ := ih.fields (hs.mono hnext) hdone' h
            exact ⟨hfs, fun q hq => hnext (hrest hq)⟩
          next t₄ hclose =>
            obtain ⟨rfl, rfl⟩ := Prod.mk.inj (Except.ok.inj h)
            exact ⟨hdone', subset_of_skipSpace hclose hend⟩
          next => cases h
      next => cases h
  next => cases h

theorem readsSpellable (d : Dialect) (n : Nat) : ReadsSpellable d n := by
  induction n with
  | zero =>
    constructor
    all_goals
      intros
      contradiction
  | succ n ih => exact ⟨ih.readValue, ih.readItems, ih.readFields⟩

/-- What is read of an ordinary text is spellable. -/
theorem isSpellable_of_read {text : String} {v : Json}
    (h : readLoose d (.ofString text) = .ok v) : IsSpellable v := by
  have hs : NoSurrogates (LooseText.ofString text).points :=
    List.forall_mem_map.mpr fun _ _ => rfl
  rw [readLoose] at h
  split at h
  next => cases h
  next w t hread =>
    split at h
    next =>
      obtain rfl := Except.ok.inj h
      exact ((readsSpellable d _).value (hs.mono (skipSpace_subset (List.Subset.refl _))) hread).1
    next => cases h

end Read

section Keeping

variable {α : Type} {check : Check α} {P : α → Prop}

def Check.Keeps (check : Check α) (P : α → Prop) : Prop :=
  ∀ v a, IsSpellable v → check v = good a → P a

theorem Check.Keeps.optional (h : check.Keeps P) {fields : Fields} {name : String} {absent a : α}
    (spellable : ∀ f ∈ fields, IsSpellable f.2) (habsent : P absent)
    (hgood : Json.optional fields name absent check = good a) : P a :=
  optional_ensures hgood habsent fun v hv => h v a (spellable _ hv)

theorem Check.Keeps.list (h : check.Keeps P) : (checkList check).Keeps fun as => ∀ a ∈ as, P a := by
  intro v as hv hgood
  cases hv with
  | list items =>
    have hitems := checkItems_eq_good.mp hgood
    clear hgood
    induction hitems with
    | nil => exact List.forall_mem_nil _
    | cons hcheck _ ih =>
      obtain ⟨hx, hr⟩ := List.forall_mem_cons.mp items
      exact List.forall_mem_cons.mpr ⟨h _ _ hx hcheck, ih hr⟩
  | _ => cases hgood

theorem Check.Keeps.orNull (h : check.Keeps P) :
    (checkOptional check).Keeps fun o => ∀ a ∈ o, P a := by
  intro v o hv hgood a ha
  rw [checkOptional.eq_def] at hgood
  split at hgood
  · cases hgood
    cases ha
  · obtain ⟨b, hb, hsome⟩ := map_eq_good.mp hgood
    cases hsome
    cases ha
    exact h v _ hv hb

theorem checkLooseText_keeps : checkLooseText.Keeps fun s => Unpaired s.points := by
  intro v s hv hgood
  cases hv with
  | text unpaired => exact good.inj hgood ▸ unpaired
  | _ => cases hgood

theorem checkInt_keeps : checkInt.Keeps fun n => Text.IsReadable n.natAbs := by
  intro v n hv hgood
  cases hv with
  | int readable => exact good.inj hgood ▸ readable
  | bool b =>
    rw [← good.inj hgood]
    exact Text.isReadable_of_le_one (by cases b <;> decide)
  | real x =>
    cases x with
    | finite negative mantissa exponent =>
      rw [checkInt, checkReal] at hgood
      split at hgood
      · split at hgood
        next hword => exact good.inj hgood ▸ isReadable_of_isInWord hword
        next => cases hgood
      · cases hgood
    | _ => cases hgood
  | text unpaired =>
    rw [checkInt] at hgood
    split at hgood
    · cases hgood
    · split at hgood
      next hn => exact good.inj hgood ▸ isReadable_of_integer hn
      · cases hgood
      · cases hgood
  | _ => cases hgood

end Keeping

end ChangeImpact.Json
