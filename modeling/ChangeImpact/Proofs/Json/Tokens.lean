import ChangeImpact.Proofs.Data.Spans
import ChangeImpact.Proofs.Json.Grammar

/-!
# Reading what values are made of

Blanks, texts in quotes, numbers and the names of constants are read up to where they end. What
follows a value cannot go on with a number, so that the digits of a number stop with it.
-/

namespace ChangeImpact.Json

def Ends (s : List CodePoint) : Prop :=
  ∀ p, s.head? = some p → isDigit p = false ∧ p ≠ .char '.' ∧ p ≠ .char 'e' ∧ p ≠ .char 'E'

section Blanks

theorem skipSpace_append {blanks : List CodePoint} (h : AllSpace blanks) (s : List CodePoint) :
    skipSpace (blanks ++ s) = skipSpace s :=
  List.dropWhile_append_of_pos h

theorem skipSpace_cons {p : CodePoint} (h : isSpace p = false) (s : List CodePoint) :
    skipSpace (p :: s) = p :: s := by
  rw [skipSpace, List.dropWhile_cons, h, if_neg Bool.false_ne_true]

theorem skipSpace_of_allSpace {blanks : List CodePoint} (h : AllSpace blanks) :
    skipSpace blanks = [] := by
  have := skipSpace_append h []
  rwa [List.append_nil] at this

theorem isSpace_cases {p : CodePoint} (h : isSpace p = true) :
    p = .char ' ' ∨ p = .char '\t' ∨ p = .char '\n' ∨ p = .char '\r' := by
  simpa [isSpace] using h

theorem ends_of_char {p : CodePoint} (s : List CodePoint)
    (h : isSpace p = true ∨ p = .char ',' ∨ p = .char ']' ∨ p = .char '\x7d') :
    Ends (p :: s) := by
  intro q hq
  obtain rfl : p = q := by simpa using hq
  rcases h with h | rfl | rfl | rfl
  · rcases isSpace_cases h with rfl | rfl | rfl | rfl <;> decide
  all_goals decide

theorem ends_nil : Ends [] := by
  intro p hp
  cases hp

theorem Ends.of_allSpace {blanks s : List CodePoint} (h : AllSpace blanks) (hs : Ends s) :
    Ends (blanks ++ s) := by
  cases blanks with
  | nil => exact hs
  | cons p r => exact ends_of_char _ (.inl (h p List.mem_cons_self))

end Blanks

section Quotes

theorem hexUnit?_append {s t : List CodePoint} {n : Nat} (h : hexUnit? s = some (n, t))
    (r : List CodePoint) : hexUnit? (s ++ r) = some (n, t ++ r) := by
  unfold hexUnit? at h
  split at h
  next a b c d t' =>
    simp only [Option.bind_eq_bind, Option.bind_eq_some_iff, Option.pure_def, Option.some.injEq,
      Prod.mk.injEq] at h
    obtain ⟨a', ha, b', hb, c', hc, d', hd, hn, rfl⟩ := h
    simp [hexUnit?, ha, hb, hc, hd, hn]
  next => cases h

theorem Quoted.hexUnit {ps s r : List CodePoint} (h : Quoted ps s)
    (hs : s = .char '\\' :: .char 'u' :: r) : ∃ m t, hexUnit? r = some (m, t) := by
  cases h with
  | nil => cases hs
  | plain visible quote backslash more => exact absurd (List.cons.inj hs).1 backslash
  | @escape e c ps s known more =>
    obtain ⟨he, -⟩ := List.cons.inj (List.cons.inj hs).2
    obtain rfl := CodePoint.char.inj he
    have hu : escapes.lookup 'u' = none := by decide
    cases hu.symm.trans known
  | unit hex alone more =>
    obtain ⟨-, hr⟩ := List.cons.inj (List.cons.inj hs).2
    exact ⟨_, _, by rw [← hr]; exact hexUnit?_append hex _⟩
  | pair hex hex' first second more =>
    obtain ⟨-, hr⟩ := List.cons.inj (List.cons.inj hs).2
    exact ⟨_, _, by rw [← hr]; exact hexUnit?_append hex _⟩

/-- A dialect in which surrogates must come in pairs takes any other code point by number. -/
theorem single?_of_ordinary {d : Dialect} {n : Nat}
    (ordinary : d.pairsOnly = true → (CodePoint.ofNat n).isSurrogate = false) :
    single? d n = some (.ofNat n) := by
  rw [single?, if_neg]
  intro h
  obtain ⟨hpairs, hunit⟩ := Bool.and_eq_true_iff.mp h
  have hsurrogate : 0xD800 ≤ n ∧ n < 0xE000 := by
    simp only [isHigh, isLow, Bool.or_eq_true, Bool.and_eq_true, decide_eq_true_eq] at hunit
    omega
  have hnone := ordinary hpairs
  rw [CodePoint.ofNat, dif_pos hsurrogate] at hnone
  cases hnone

theorem escapedUnit?_alone {d : Dialect} {n : Nat} {digits ps s : List CodePoint}
    (hex : hexUnit? digits = some (n, [])) (alone : isHigh n = true → startsWithLow s = false)
    (ordinary : d.pairsOnly = true → (CodePoint.ofNat n).isSurrogate = false)
    (h : Quoted ps s) (r : List CodePoint) :
    escapedUnit? d (digits ++ (s ++ .char '"' :: r)) =
      some (.ofNat n, s ++ .char '"' :: r) := by
  have hread : hexUnit? (digits ++ (s ++ .char '"' :: r)) = some (n, s ++ .char '"' :: r) :=
    hexUnit?_append hex _
  rw [escapedUnit?, hread, Option.bind_eq_bind, Option.bind_some]
  simp only [single?_of_ordinary ordinary]
  split
  next r2 hr2 =>
    -- A number behind this one is no low surrogate where this one is a high one.
    obtain ⟨t, rfl, rfl⟩ : ∃ t, s = .char '\\' :: .char 'u' :: t ∧ r2 = t ++ .char '"' :: r := by
      match s, hr2 with
      | [], hr2 => simp at hr2
      | [_], hr2 => simp at hr2
      | p :: q :: t, hr2 =>
        obtain ⟨hp, hrest⟩ := List.cons.inj hr2
        obtain ⟨hq, ht⟩ := List.cons.inj hrest
        exact ⟨t, by rw [hp, hq], ht.symm⟩
    obtain ⟨m, t', hm⟩ := h.hexUnit rfl
    split
    next hhigh =>
      have hlow : isLow m = false := by simpa [startsWithLow, hm] using alone hhigh
      rw [hexUnit?_append hm]
      simp [hlow]
    next => rfl
  next => rfl

theorem escapedUnit?_pair {d : Dialect} {high low : Nat} {digits digits' s : List CodePoint}
    (hex : hexUnit? digits = some (high, [])) (hex' : hexUnit? digits' = some (low, []))
    (first : isHigh high = true) (second : isLow low = true) :
    escapedUnit? d (digits ++ .char '\\' :: .char 'u' :: (digits' ++ s)) =
      some (joined high low, s) := by
  have hread : hexUnit? (digits ++ .char '\\' :: .char 'u' :: (digits' ++ s)) =
      some (high, .char '\\' :: .char 'u' :: (digits' ++ s)) := hexUnit?_append hex _
  have hread' : hexUnit? (digits' ++ s) = some (low, s) := hexUnit?_append hex' _
  rw [escapedUnit?, hread, Option.bind_eq_bind, Option.bind_some]
  simp [first, second, hread']

theorem readQuoted_plain {d : Dialect} {p : CodePoint} (visible : 32 ≤ p.toNat)
    (quote : p ≠ .char '"') (backslash : p ≠ .char '\\') (n : Nat) (r : List CodePoint) :
    readQuoted d (n + 1) (p :: r) =
      (readQuoted d n r).map fun (ps, r2) => (p :: ps, r2) := by
  have hplain : (decide (p.toNat < 32) || p == .char '\\') = false := by
    rw [Bool.or_eq_false_iff, decide_eq_false_iff_not, Nat.not_lt, beq_eq_false_iff_ne]
    exact ⟨visible, backslash⟩
  rw [readQuoted.eq_6 d n p r quote (fun _ h _ => backslash h) (fun _ _ h _ => backslash h),
    hplain, if_neg Bool.false_ne_true]

theorem readQuoted_escape {d : Dialect} {e c : Char} (known : escapes.lookup e = some c) (n : Nat)
    (r : List CodePoint) : readQuoted d (n + 1) (.char '\\' :: .char e :: r) =
      (readQuoted d n r).map fun (ps, r2) => (.char c :: ps, r2) := by
  have hu : escapes.lookup 'u' = none := by decide
  have hne : e ≠ 'u' := by
    intro heq
    rw [heq, hu] at known
    cases known
  rw [readQuoted.eq_5 d n e r hne, known]

theorem readQuoted_unit {d : Dialect} {p : CodePoint} {r t : List CodePoint}
    (h : escapedUnit? d r = some (p, t)) (n : Nat) :
    readQuoted d (n + 1) (.char '\\' :: .char 'u' :: r) =
      (readQuoted d n t).map fun (ps, r2) => (p :: ps, r2) := by
  rw [readQuoted.eq_def]
  simp only [h]

structure QuotedIn (d : Dialect) (ps s : List CodePoint) : Prop where
  quoted : Quoted ps s
  ordinary : d.pairsOnly = true → ∀ p ∈ ps, p.isSurrogate = false

theorem readQuoted_of_quoted {d : Dialect} {ps s : List CodePoint} (h : QuotedIn d ps s)
    {n : Nat} (hn : s.length < n) (r : List CodePoint) :
    readQuoted d n (s ++ .char '"' :: r) = .ok (ps, r) := by
  obtain ⟨quoted, ordinary⟩ := h
  induction quoted generalizing n with
  | nil =>
    obtain ⟨k, rfl⟩ := Nat.exists_eq_add_one.mpr (Nat.zero_lt_of_lt hn)
    rfl
  | plain visible quote backslash more ih =>
    obtain ⟨k, rfl⟩ := Nat.exists_eq_add_one.mpr (Nat.zero_lt_of_lt hn)
    rw [List.cons_append, readQuoted_plain visible quote backslash,
      ih (by simpa using hn) fun hd => List.forall_mem_of_forall_mem_cons (ordinary hd)]
    rfl
  | escape known more ih =>
    obtain ⟨k, rfl⟩ := Nat.exists_eq_add_one.mpr (Nat.zero_lt_of_lt hn)
    have hk := hn
    simp only [List.length_cons] at hk
    rw [List.cons_append, List.cons_append, readQuoted_escape known,
      ih (by omega) fun hd => List.forall_mem_of_forall_mem_cons (ordinary hd)]
    rfl
  | unit hex alone more ih =>
    obtain ⟨k, rfl⟩ := Nat.exists_eq_add_one.mpr (Nat.zero_lt_of_lt hn)
    have hk := hn
    simp only [List.length_cons, List.length_append] at hk
    rw [List.cons_append, List.cons_append, List.append_assoc,
      readQuoted_unit (escapedUnit?_alone hex alone
        (fun hd => ordinary hd _ List.mem_cons_self) more r),
      ih (by omega) fun hd => List.forall_mem_of_forall_mem_cons (ordinary hd)]
    rfl
  | pair hex hex' first second more ih =>
    obtain ⟨k, rfl⟩ := Nat.exists_eq_add_one.mpr (Nat.zero_lt_of_lt hn)
    have hk := hn
    simp only [List.length_cons, List.length_append] at hk
    rw [List.cons_append, List.cons_append, List.append_assoc, List.cons_append, List.cons_append,
      List.append_assoc, readQuoted_unit (escapedUnit?_pair hex hex' first second),
      ih (by omega) fun hd => List.forall_mem_of_forall_mem_cons (ordinary hd)]
    rfl

end Quotes

section Numbers

theorem isDigit_digitChar : ∀ d < 10, isDigit (.char (Nat.digitChar d)) = true ∧
    (Nat.digitChar d).toNat - 48 = d := by decide

theorem isDigit_of_mem_digits {n : Nat} {p : CodePoint}
    (h : p ∈ (Decimal.digits n).map CodePoint.char) : isDigit p = true := by
  obtain ⟨c, hc, rfl⟩ := List.mem_map.mp h
  obtain ⟨d, hd, rfl⟩ := Text.exists_digitChar n c hc
  exact (isDigit_digitChar d hd).1

theorem natOf_digits (n : Nat) : natOf (Decimal.digits n) = n := by
  induction n using Decimal.digits.induct with
  | case1 n h =>
    rw [Decimal.digits, if_pos h]
    simp [natOf, (isDigit_digitChar n h).2]
  | case2 n h ih =>
    have hlast := (isDigit_digitChar (n % 10) (Nat.mod_lt _ (by decide))).2
    rw [Decimal.digits, if_neg h]
    simp only [natOf, List.foldl_append, List.foldl_cons, List.foldl_nil] at ih ⊢
    rw [ih, hlast]
    omega

theorem head_digits {n : Nat} (hn : n ≠ 0) : (Decimal.digits n).head? ≠ some '0' := by
  induction n using Decimal.digits.induct with
  | case1 n h =>
    have hdigit : ∀ d < 10, d ≠ 0 → Nat.digitChar d ≠ '0' := by decide
    rw [Decimal.digits, if_pos h]
    simpa using hdigit n h hn
  | case2 n h ih =>
    have hrest := ih (by omega)
    rw [Decimal.digits, if_neg h, List.head?_append]
    cases hd : Decimal.digits (n / 10) with
    | nil => exact absurd hd (Text.digits_ne_nil _)
    | cons c r =>
      rw [hd] at hrest
      simpa using hrest

theorem cutDigits_digits (n : Nat) {r : List CodePoint} (hr : Ends r) :
    cutDigits ((Decimal.digits n).map CodePoint.char ++ r) = (Decimal.digits n, r) := by
  have hall : ∀ p ∈ (Decimal.digits n).map CodePoint.char, isDigit p = true :=
    fun p hp => isDigit_of_mem_digits hp
  have hstop : ∀ p ∈ r.head?, isDigit p = false := fun p hp => (hr p hp).1
  rw [cutDigits, takeWhile_append_of_head hall hstop, dropWhile_append_of_head hall hstop,
    List.map_map]
  have hid : CodePoint.visible ∘ CodePoint.char = id := rfl
  rw [hid, List.map_id]

theorem readFraction_of_ends {r : List CodePoint} (hr : Ends r) : readFraction r = ([], r) := by
  unfold readFraction
  split
  next t => exact absurd rfl (hr _ rfl).2.1
  next => rfl

theorem readExponent_of_ends {r : List CodePoint} (hr : Ends r) : readExponent r = (none, r) := by
  unfold readExponent
  split
  next p t =>
    obtain ⟨-, -, he, hE⟩ := hr p rfl
    rw [if_neg]
    simp [he, hE]
  next => rfl

theorem readNumber_of_cut {d : Dialect} {negative : Bool} {s r : List CodePoint} {whole : List Char}
    (hcut : s = .char '0' :: r ∧ whole = ['0'] ∨
      (∀ t, s ≠ .char '0' :: t) ∧ cutDigits s = (whole, r))
    (hne : whole.isEmpty = false) (hr : Ends r) :
    readNumber d negative s =
      if isOverlong d true whole then .error .digitLimit
      else .ok (.int (Text.signed negative (natOf whole)), r) := by
  rw [readNumber.eq_def]
  split
  next whole' r' heq =>
    have hsame : whole' = whole ∧ r' = r := by
      split at heq
      next t =>
        obtain ⟨rfl, rfl⟩ := Prod.mk.inj heq
        rcases hcut with ⟨h, rfl⟩ | ⟨h, -⟩
        · exact ⟨rfl, (List.cons.inj h).2⟩
        · exact absurd rfl (h t)
      next hzero =>
        rcases hcut with ⟨h, -⟩ | ⟨-, h⟩
        · exact absurd h (hzero r)
        · obtain ⟨rfl, rfl⟩ := Prod.mk.inj (heq.symm.trans h)
          exact ⟨rfl, rfl⟩
    obtain ⟨rfl, rfl⟩ := hsame
    simp [hne, readFraction_of_ends hr, readExponent_of_ends hr]

theorem readNumber_digits {d : Dialect} (negative : Bool) (n : Nat) {r : List CodePoint}
    (hr : Ends r) : readNumber d negative ((Decimal.digits n).map CodePoint.char ++ r) =
      if isOverlong d true (Decimal.digits n) = false then .ok (.int (Text.signed negative n), r)
      else .error .digitLimit := by
  have hcut : (Decimal.digits n).map CodePoint.char ++ r = .char '0' :: r ∧
        Decimal.digits n = ['0'] ∨
      (∀ t, (Decimal.digits n).map CodePoint.char ++ r ≠ .char '0' :: t) ∧
        cutDigits ((Decimal.digits n).map CodePoint.char ++ r) = (Decimal.digits n, r) := by
    by_cases hn : n = 0
    · have hzero : Decimal.digits 0 = ['0'] := by
        rw [Decimal.digits, if_pos (by decide)]
        rfl
      rw [hn, hzero]
      exact .inl ⟨rfl, rfl⟩
    · refine .inr ⟨fun t heq => head_digits hn ?_, cutDigits_digits n hr⟩
      cases hd : Decimal.digits n with
      | nil => exact absurd hd (Text.digits_ne_nil n)
      | cons c t' =>
        rw [hd] at heq
        simpa using (List.cons.inj heq).1
  have hne : (Decimal.digits n).isEmpty = false := by
    simpa using Text.digits_ne_nil n
  rw [readNumber_of_cut hcut hne hr, natOf_digits]
  cases isOverlong d true (Decimal.digits n) <;> simp

theorem isOverlong_digits {d : Dialect} {n : Nat} :
    isOverlong d true (Decimal.digits n) = false ↔ Text.IsReadable n := by
  simp [isOverlong, Text.IsReadable]

end Numbers

section Literals

theorem readLiteral?_of_head {p : CodePoint} (s : List CodePoint)
    (h : p ∉ ['n', 't', 'f', 'N', 'I', '-'].map CodePoint.char) :
    readLiteral? (p :: s) = none := by
  have hstart : ∀ l ∈ literals, ∃ q ∈ ['n', 't', 'f', 'N', 'I', '-'].map CodePoint.char,
      l.1.head? = some q := by decide
  rw [readLiteral?, List.findSome?_eq_none_iff]
  intro l hl
  obtain ⟨start, hmem, hhead⟩ := hstart l hl
  obtain ⟨w, v⟩ := l
  cases w with
  | nil => cases hhead
  | cons q r =>
    obtain rfl : q = start := by simpa using hhead
    have hne : (q == p) = false := beq_eq_false_iff_ne.mpr (ne_of_mem_of_not_mem hmem h)
    simp [List.isPrefixOf, hne]

/-- What starts like a negative infinity is no negative number in digits. -/
theorem readLiteral?_negative {p : CodePoint} (s : List CodePoint) (h : isDigit p = true) :
    readLiteral? (.char '-' :: p :: s) = none := by
  have hne : CodePoint.char 'I' ≠ p := by
    intro heq
    rw [← heq] at h
    cases h
  rw [readLiteral?]
  simp [literals, LooseText.ofString, LooseText.ofChars, hne]

theorem readLiteral?_null (s : List CodePoint) :
    readLiteral? (word "null" ++ s) = some (.null, s) := rfl

theorem readLiteral?_bool (b : Bool) (s : List CodePoint) :
    readLiteral? (word (if b then "true" else "false") ++ s) = some (.bool b, s) := by
  cases b <;> rfl

end Literals

end ChangeImpact.Json
