import ChangeImpact.Json.Writer
import ChangeImpact.Proofs.Json.Payload
import ChangeImpact.Proofs.Text.Utf8
import Mathlib.Data.List.Chain

/-!
# Written values stand for themselves

What is written for a value, in any style, stands for that value by the grammar of the format. The
value holds no floating-point number, its objects name no field twice, and none of its texts has a
high surrogate directly before a low one, since the two are written like one character.
-/

namespace ChangeImpact.Json

def Unpaired (ps : List CodePoint) : Prop :=
  ps.IsChain fun p q => ¬(isHigh p.toNat = true ∧ isLow q.toNat = true)

instance (ps : List CodePoint) : Decidable (Unpaired ps) :=
  inferInstanceAs (Decidable (List.IsChain _ _))

inductive IsPlain : Json → Prop
  | null : IsPlain .null
  | bool (b : Bool) : IsPlain (.bool b)
  | int (n : Int) : IsPlain (.int n)
  | text {s : LooseText} (unpaired : Unpaired s.points) : IsPlain (.text s)
  | list {xs : List Json} (items : ∀ x ∈ xs, IsPlain x) : IsPlain (.list xs)
  | object {fields : Fields} (names : (fields.map Prod.fst).Nodup)
      (unpaired : ∀ f ∈ fields, Unpaired f.1.points) (items : ∀ f ∈ fields, IsPlain f.2) :
      IsPlain (.object fields)

section Plain

variable {fields : Fields}

theorem isPlain_text {s : LooseText} : IsPlain (.text s) ↔ Unpaired s.points :=
  ⟨fun | .text unpaired => unpaired, .text⟩

theorem isPlain_list {xs : List Json} : IsPlain (.list xs) ↔ ∀ x ∈ xs, IsPlain x :=
  ⟨fun | .list items => items, .list⟩

theorem isPlain_object : IsPlain (.object fields) ↔ (fields.map Prod.fst).Nodup ∧
    (∀ f ∈ fields, Unpaired f.1.points) ∧ ∀ f ∈ fields, IsPlain f.2 :=
  ⟨fun | .object names unpaired items => ⟨names, unpaired, items⟩,
    fun ⟨names, unpaired, items⟩ => .object names unpaired items⟩

theorem isHigh_char (c : Char) : isHigh c.toNat = false := by
  have hvalid := Text.Utf8.toNat_valid c
  simp only [isHigh, Bool.and_eq_false_iff, decide_eq_false_iff_not]
  omega

@[simp] theorem unpaired_ofString (s : String) : Unpaired (LooseText.ofString s).points := by
  refine (List.isChain_map CodePoint.char).mpr ?_
  refine (List.pairwise_of_forall fun c _ h => ?_).isChain
  exact Bool.false_ne_true ((isHigh_char c).symm.trans h.1)

end Plain

section Numbered

theorem hex_step (width n : Nat) : Text.Quoted.hex (width + 2) n =
    Text.Quoted.hex (width + 1) (n / 16) ++ [Nat.digitChar (n % 16)] := by
  simp only [Text.Quoted.hex]
  by_cases h : n < 16
  · have hsmall : Nat.toDigits 16 (n / 16) = ['0'] := by
      rw [Nat.div_eq_of_lt h, Nat.toDigits_zero]
    rw [Nat.toDigits_of_lt_base h, hsmall, Nat.mod_eq_of_lt h]
    simp [List.replicate_succ']
  · rw [Nat.toDigits_of_base_le (by decide) (Nat.le_of_not_lt h), List.length_append,
      List.length_singleton, Nat.add_sub_add_right (width + 1) 1, List.append_assoc]

theorem hex_four {n : Nat} (h : n < 0x10000) : Text.Quoted.hex 4 n =
    [n / 16 / 16 / 16, n / 16 / 16 % 16, n / 16 % 16, n % 16].map Nat.digitChar := by
  have hfirst : n / 16 / 16 / 16 < 16 := by omega
  have hone : Text.Quoted.hex 1 (n / 16 / 16 / 16) = [Nat.digitChar (n / 16 / 16 / 16)] := by
    simp [Text.Quoted.hex, Nat.toDigits_of_lt_base hfirst]
  rw [hex_step, hex_step, hex_step, hone]
  rfl

theorem hexValue?_digitChar : ∀ d < 16, hexValue? (Nat.digitChar d) = some d := by decide

theorem hexUnit?_hex {n : Nat} (h : n < 0x10000) :
    hexUnit? ((Text.Quoted.hex 4 n).map CodePoint.char) = some (n, []) := by
  have hdigit : ∀ m, hexValue? (Nat.digitChar (m % 16)) = some (m % 16) := fun m =>
    hexValue?_digitChar _ (Nat.mod_lt _ (by decide))
  have hfirst : hexValue? (Nat.digitChar (n / 16 / 16 / 16)) = some (n / 16 / 16 / 16) :=
    hexValue?_digitChar _ (by omega)
  have hsum : ((n / 16 / 16 / 16 * 16 + n / 16 / 16 % 16) * 16 + n / 16 % 16) * 16 + n % 16 = n := by
    omega
  rw [hex_four h]
  simp [hexUnit?, hdigit, hfirst, hsum]

theorem unit_points (n : Nat) : (unit n).map CodePoint.char =
    .char '\\' :: .char 'u' :: (Text.Quoted.hex 4 n).map CodePoint.char := rfl

theorem ofNat_toNat (p : CodePoint) : CodePoint.ofNat p.toNat = p := by
  cases p with
  | char c =>
    have hvalid := Text.Utf8.toNat_valid c
    rw [CodePoint.toNat, CodePoint.ofNat, dif_neg (by omega), Char.ofNat_toNat]
  | surrogate n =>
    have hn := n.isLt
    rw [CodePoint.toNat, CodePoint.ofNat, dif_pos (by omega)]
    simp

variable {ps s : List CodePoint}

theorem joined_halves {n : Nat} (h : 0x10000 ≤ n) :
    joined (0xD800 + (n - 0x10000) / 0x400) (0xDC00 + (n - 0x10000) % 0x400) = .ofNat n := by
  have hvalue : 0x10000 + (0xD800 + (n - 0x10000) / 0x400 - 0xD800) * 0x400 +
      (0xDC00 + (n - 0x10000) % 0x400 - 0xDC00) = n := by omega
  rw [joined, hvalue]

theorem toNat_lt (p : CodePoint) : p.toNat < 0x110000 := by
  cases p with
  | char c =>
    have hvalid := Text.Utf8.toNat_valid c
    rw [CodePoint.toNat]
    omega
  | surrogate n =>
    have hn := n.isLt
    rw [CodePoint.toNat]
    omega

/-- A code point written by number stands for itself, unless it is a high surrogate and a low
one follows. -/
theorem Quoted.numbered {n : Nat} (hn : n < 0x110000) (more : Quoted ps s)
    (alone : isHigh n = true → startsWithLow s = false) :
    Quoted (.ofNat n :: ps) ((Json.numbered n).map CodePoint.char ++ s) := by
  rw [Json.numbered]
  by_cases h : n < 0x10000
  · rw [if_pos h, unit_points]
    exact .unit (hexUnit?_hex h) alone more
  · obtain ⟨high, hhigh⟩ : ∃ high, 0xD800 + (n - 0x10000) / 0x400 = high := ⟨_, rfl⟩
    obtain ⟨low, hlow⟩ : ∃ low, 0xDC00 + (n - 0x10000) % 0x400 = low := ⟨_, rfl⟩
    have hjoined := joined_halves (Nat.le_of_not_lt h)
    rw [hhigh, hlow] at hjoined
    have hbounds : 0xD800 ≤ high ∧ high < 0xDC00 ∧ 0xDC00 ≤ low ∧ low < 0xE000 := by omega
    have hpair := Quoted.pair (hexUnit?_hex (n := high) (by omega))
      (hexUnit?_hex (n := low) (by omega)) (by simp [isHigh, hbounds])
      (by simp [isLow, hbounds]) more
    rw [if_neg h, List.map_append, unit_points, unit_points, ← hjoined, hhigh, hlow]
    simpa only [List.cons_append, List.append_assoc] using hpair

end Numbered

section Texts

variable {ps s : List CodePoint}

theorem Quoted.escaped {c : Char} (more : Quoted ps s) (ascii : Bool) :
    Quoted (.char c :: ps) ((Json.escape ascii c).map CodePoint.char ++ s) := by
  have hof : ∀ n, c.toNat = n → c = Char.ofNat n := fun n hn => hn ▸ (Char.ofNat_toNat c).symm
  rw [Json.escape]
  by_cases hquote : c = '"' ∨ c = '\\'
  · rw [if_pos (by simpa using hquote)]
    rcases hquote with rfl | rfl <;> exact .escape rfl more
  obtain ⟨hquote, hbackslash⟩ := not_or.mp hquote
  rw [if_neg (by simp [hquote, hbackslash])]
  by_cases h8 : c.toNat = 8
  · obtain rfl := hof 8 h8
    exact .escape rfl more
  by_cases h9 : c.toNat = 9
  · obtain rfl := hof 9 h9
    exact .escape rfl more
  by_cases h10 : c.toNat = 10
  · obtain rfl := hof 10 h10
    exact .escape rfl more
  by_cases h12 : c.toNat = 12
  · obtain rfl := hof 12 h12
    exact .escape rfl more
  by_cases h13 : c.toNat = 13
  · obtain rfl := hof 13 h13
    exact .escape rfl more
  simp only [beq_iff_eq, h8, h9, h10, h12, h13, if_false]
  split
  · have hsame : CodePoint.ofNat c.toNat = .char c := ofNat_toNat (.char c)
    have hnumbered := more.numbered (toNat_lt (.char c)) fun h =>
      absurd ((isHigh_char c).symm.trans h) Bool.false_ne_true
    rw [CodePoint.toNat, hsame] at hnumbered
    exact hnumbered
  next hplain =>
    have hvisible : 32 ≤ c.toNat := by
      by_contra hlow
      simp [Nat.lt_of_not_le hlow] at hplain
    exact .plain hvisible (by simpa using hquote) (by simpa using hbackslash) more

/-- What stands for a code point in quotes begins with a low surrogate by number only where the
code point is one. -/
theorem Quoted.isLow_of_startsWithLow (h : Quoted ps s) (hlow : startsWithLow s = true) :
    ∃ p r, ps = p :: r ∧ isLow p.toNat = true := by
  cases h with
  | nil => cases hlow
  | plain visible quote backslash more =>
    rw [startsWithLow] at hlow
    · cases hlow
    · intro r heq
      exact backslash (List.cons.inj heq).1
  | @escape e c _ _ known more =>
    have hu : escapes.lookup 'u' = none := by decide
    have hne : e ≠ 'u' := by
      intro heq
      rw [heq, hu] at known
      cases known
    rw [startsWithLow] at hlow
    · cases hlow
    · intro r heq
      exact hne (CodePoint.char.inj (List.cons.inj (List.cons.inj heq).2).1)
  | @unit n _ _ _ hex alone more =>
    rw [startsWithLow, hexUnit?_append hex] at hlow
    have hbounds : 0xDC00 ≤ n ∧ n < 0xE000 := by simpa [isLow] using hlow
    have hvalue : 0xD800 + (n - 0xD800) = n := by omega
    refine ⟨_, _, rfl, ?_⟩
    rw [CodePoint.ofNat, dif_pos (by omega), CodePoint.toNat, hvalue]
    simpa using hlow
  | @pair high _ _ _ _ _ hex hex' first second more =>
    rw [startsWithLow, hexUnit?_append hex] at hlow
    have hsecond : 0xDC00 ≤ high ∧ high < 0xE000 := by simpa [isLow] using hlow
    have hfirst : 0xD800 ≤ high ∧ high < 0xDC00 := by simpa [isHigh] using first
    exact absurd hfirst.2 (Nat.not_lt.mpr hsecond.1)

theorem quoted_points (ascii : Bool) (h : Unpaired ps) :
    Quoted ps ((ps.flatMap (escapePoint ascii)).map CodePoint.char) := by
  induction ps with
  | nil => exact .nil
  | cons p r ih =>
    have hmore := ih h.tail
    rw [List.flatMap_cons, List.map_append]
    cases p with
    | char c => exact hmore.escaped ascii
    | surrogate n =>
      have hnumbered := hmore.numbered (toNat_lt (.surrogate n)) fun hhigh => by
        cases r with
        | nil => rfl
        | cons q t =>
          by_contra hlow
          rw [Bool.not_eq_false] at hlow
          obtain ⟨q', t', heq, hsecond⟩ := hmore.isLow_of_startsWithLow hlow
          rw [← (List.cons.inj heq).1] at hsecond
          exact (List.isChain_cons_cons.mp h).1 ⟨hhigh, hsecond⟩
      rw [ofNat_toNat] at hnumbered
      exact hnumbered

end Texts

section Padded

variable {blanks : List CodePoint}

def Item.pad (blanks : List CodePoint) (i : Item) : Item := { i with right := i.right ++ blanks }

theorem Item.value_pad (i : Item) : (i.pad blanks).value = i.value := rfl

theorem Item.whole_pad (i : Item) : (i.pad blanks).whole = i.whole ++ blanks := by
  simp only [pad, whole, List.append_assoc]

theorem Item.more_pad (m : List Item) (i : Item) :
    Item.more (m ++ [i.pad blanks]) = Item.more (m ++ [i]) ++ blanks := by
  simp [Item.more, Item.whole_pad]

theorem Item.IsSpaced.pad {i : Item} (h : i.IsSpaced) (space : AllSpace blanks) :
    (i.pad blanks).IsSpaced :=
  ⟨h.1, List.forall_mem_append.mpr ⟨h.2, space⟩⟩

def Entry.pad (blanks : List CodePoint) (e : Entry) : Entry := { e with item := e.item.pad blanks }

theorem Entry.name_pad (e : Entry) : (e.pad blanks).name = e.name := rfl

theorem Entry.field_pad (e : Entry) : (e.pad blanks).field = e.field := rfl

theorem Entry.whole_pad (e : Entry) : (e.pad blanks).whole = e.whole ++ blanks := by
  simp only [pad, whole, fromName, Item.whole_pad, List.append_assoc, List.cons_append]

theorem Entry.more_pad (m : List Entry) (e : Entry) :
    Entry.more (m ++ [e.pad blanks]) = Entry.more (m ++ [e]) ++ blanks := by
  simp [Entry.more, Entry.whole_pad]

theorem Entry.IsSpaced.pad {e : Entry} (h : e.IsSpaced) (space : AllSpace blanks) :
    (e.pad blanks).IsSpaced :=
  ⟨h.1, h.2.1, h.2.2.pad space⟩

theorem forall_mem_changedLast {α : Type} {P : α → Prop} {first last last' : α} {m : List α}
    (h : ∀ a ∈ first :: (m ++ [last]), P a) (changed : P last → P last') :
    ∀ a ∈ first :: (m ++ [last']), P a := by
  rw [List.forall_mem_cons, List.forall_mem_append, List.forall_mem_singleton] at h ⊢
  exact ⟨h.1, h.2.1, changed h.2.2⟩

theorem Spelled.paddedList {first : Item} {more : List Item} (space : AllSpace blanks)
    (spaced : ∀ i ∈ first :: more, i.IsSpaced)
    (spelled : ∀ i ∈ first :: more, Spelled i.value i.text) :
    Spelled (.list ((first :: more).map Item.value))
      (.char '[' :: (first.whole ++ Item.more more ++ (blanks ++ [.char ']']))) := by
  rcases List.eq_nil_or_concat more with rfl | ⟨m, i, rfl⟩
  · rw [List.forall_mem_singleton] at spaced spelled
    have h := @Spelled.list (first.pad blanks) []
      (List.forall_mem_singleton.mpr (spaced.pad space)) (List.forall_mem_singleton.mpr spelled)
    rw [Item.whole_pad] at h
    simpa only [List.map_singleton, Item.value_pad, Item.more, List.flatMap_nil, List.append_nil,
      List.append_assoc] using h
  · rw [List.concat_eq_append] at spaced spelled ⊢
    have h := @Spelled.list first (m ++ [i.pad blanks])
      (forall_mem_changedLast spaced fun hi => hi.pad space)
      (forall_mem_changedLast spelled fun hi => hi)
    rw [Item.more_pad] at h
    simpa only [List.map_cons, List.map_append, Item.value_pad, List.append_assoc] using h

theorem Spelled.paddedObject {first : Entry} {more : List Entry} (space : AllSpace blanks)
    (spaced : ∀ e ∈ first :: more, e.IsSpaced)
    (names : ((first :: more).map Entry.name).Nodup)
    (quoted : ∀ e ∈ first :: more, Quoted e.name.points e.nameText)
    (spelled : ∀ e ∈ first :: more, Spelled e.item.value e.item.text) :
    Spelled (.object ((first :: more).map Entry.field))
      (.char '\x7b' :: (first.whole ++ Entry.more more ++ (blanks ++ [.char '\x7d']))) := by
  rcases List.eq_nil_or_concat more with rfl | ⟨m, e, rfl⟩
  · rw [List.forall_mem_singleton] at spaced quoted spelled
    have h := @Spelled.object (first.pad blanks) []
      (List.forall_mem_singleton.mpr (spaced.pad space)) names
      (List.forall_mem_singleton.mpr quoted) (List.forall_mem_singleton.mpr spelled)
    rw [Entry.whole_pad] at h
    simpa only [List.map_singleton, Entry.field_pad, Entry.more, List.flatMap_nil, List.append_nil,
      List.append_assoc] using h
  · rw [List.concat_eq_append] at spaced names quoted spelled ⊢
    have hnames : ((first :: (m ++ [e.pad blanks])).map Entry.name).Nodup := by
      simpa only [List.map_cons, List.map_append, Entry.name_pad] using names
    have h := @Spelled.object first (m ++ [e.pad blanks])
      (forall_mem_changedLast spaced fun he => he.pad space) hnames
      (forall_mem_changedLast quoted fun he => he) (forall_mem_changedLast spelled fun he => he)
    rw [Entry.more_pad] at h
    simpa only [List.map_cons, List.map_append, Entry.field_pad, List.append_assoc] using h

end Padded

theorem allSpace_nil : AllSpace [] := List.forall_mem_nil _

theorem allSpace_blank : AllSpace ([' '].map .char) := List.forall_mem_singleton.mpr rfl

section Values

variable (style : Style) (depth : Nat)

def gap : List Char :=
  match style.indent with
  | some _ => newline style depth
  | none => [' ']

theorem separator_eq : separator style depth = ',' :: gap style depth := by
  rw [separator, gap]
  cases style.indent <;> rfl

def writtenItem (left : List Char) (v : Json) : Item :=
  ⟨v, left.map .char, (chars style depth v).map .char, []⟩

def writtenEntry (left : List Char) (f : LooseText × Json) : Entry :=
  ⟨f.1, left.map .char, (f.1.points.flatMap (escapePoint style.ascii)).map .char, [],
    writtenItem style depth [' '] f.2⟩

theorem moreItems_eq (xs : List Json) : (moreItems style depth xs).map CodePoint.char =
    Item.more (xs.map (writtenItem style depth (gap style depth))) := by
  induction xs with
  | nil => rw [moreItems]; rfl
  | cons x r ih =>
    rw [moreItems, List.map_append, ih, separator_eq, List.map_cons, Item.more, Item.more,
      List.flatMap_cons, List.map_append]
    simp [writtenItem, Item.whole]

theorem moreFields_eq (fields : Fields) : (moreFields style depth fields).map CodePoint.char =
    Entry.more (fields.map (writtenEntry style depth (gap style depth))) := by
  induction fields with
  | nil => rw [moreFields]; rfl
  | cons f r ih =>
    rw [moreFields, List.map_append, ih, separator_eq, List.map_cons, Entry.more, Entry.more,
      List.flatMap_cons]
    simp [writtenEntry, writtenItem, Entry.whole, Entry.fromName, Item.whole, quoted]

theorem chars_int (n : Int) : ∃ negative k, n = Text.signed negative k ∧
    chars style depth (.int n) = (if negative then ['-'] else []) ++ Decimal.digits k := by
  cases n with
  | ofNat k => exact ⟨false, k, rfl, by rw [chars, Decimal.ofInt, Decimal.ofNat]; simp⟩
  | negSucc k => exact ⟨true, k + 1, rfl, by rw [chars, Decimal.ofInt]; simp⟩

theorem allSpace_newline : AllSpace ((newline style depth).map .char) := by
  rw [newline]
  cases style.indent with
  | none => exact allSpace_nil
  | some n =>
    refine List.forall_mem_map.mpr (List.forall_mem_cons.mpr ⟨rfl, fun c hc => ?_⟩)
    rw [List.eq_of_mem_replicate hc]
    rfl

theorem allSpace_gap : AllSpace ((gap style depth).map .char) := by
  have hline := allSpace_newline style depth
  rw [gap]
  cases h : style.indent with
  | none => exact allSpace_blank
  | some n => exact hline

variable {style depth}

theorem writtenItem_isSpaced {left : List Char} (h : AllSpace (left.map .char)) (v : Json) :
    (writtenItem style depth left v).IsSpaced := ⟨h, allSpace_nil⟩

theorem writtenEntry_isSpaced {left : List Char} (h : AllSpace (left.map .char))
    (f : LooseText × Json) : (writtenEntry style depth left f).IsSpaced :=
  ⟨h, allSpace_nil, writtenItem_isSpaced allSpace_blank f.2⟩

theorem spelled_chars_list {x : Json} {r : List Json}
    (h : ∀ y ∈ x :: r, ∀ depth, Spelled y ((chars style depth y).map CodePoint.char)) :
    Spelled (.list (x :: r)) ((chars style depth (.list (x :: r))).map CodePoint.char) := by
  obtain ⟨hx, hr⟩ := List.forall_mem_cons.mp h
  have hspelled := Spelled.paddedList (allSpace_newline style depth)
    (List.forall_mem_cons.mpr
      ⟨writtenItem_isSpaced (allSpace_newline style (depth + 1)) x,
        List.forall_mem_map.mpr fun y hy =>
          writtenItem_isSpaced (allSpace_gap style (depth + 1)) y⟩)
    (List.forall_mem_cons.mpr
      ⟨hx (depth + 1), List.forall_mem_map.mpr fun y hy => hr y hy (depth + 1)⟩)
  rw [← moreItems_eq] at hspelled
  simpa [chars, writtenItem, Item.whole, Function.comp_def] using hspelled

theorem spelled_chars_object {f : LooseText × Json} {r : Fields}
    (names : ((f :: r).map Prod.fst).Nodup) (unpaired : ∀ g ∈ f :: r, Unpaired g.1.points)
    (h : ∀ g ∈ f :: r, ∀ depth, Spelled g.2 ((chars style depth g.2).map CodePoint.char)) :
    Spelled (.object (f :: r)) ((chars style depth (.object (f :: r))).map CodePoint.char) := by
  obtain ⟨hf, hr⟩ := List.forall_mem_cons.mp h
  obtain ⟨hfirst, hothers⟩ := List.forall_mem_cons.mp unpaired
  have hnames : (writtenEntry style (depth + 1) (newline style (depth + 1)) f ::
      r.map (writtenEntry style (depth + 1) (gap style (depth + 1)))).map Entry.name =
      (f :: r).map Prod.fst := by
    simp [writtenEntry, Function.comp_def]
  have hspelled := Spelled.paddedObject (allSpace_newline style depth)
    (List.forall_mem_cons.mpr
      ⟨writtenEntry_isSpaced (allSpace_newline style (depth + 1)) f,
        List.forall_mem_map.mpr fun y hy =>
          writtenEntry_isSpaced (allSpace_gap style (depth + 1)) y⟩)
    (hnames ▸ names)
    (List.forall_mem_cons.mpr ⟨quoted_points _ hfirst,
      List.forall_mem_map.mpr fun y hy => quoted_points _ (hothers y hy)⟩)
    (List.forall_mem_cons.mpr
      ⟨hf (depth + 1), List.forall_mem_map.mpr fun y hy => hr y hy (depth + 1)⟩)
  rw [← moreFields_eq] at hspelled
  simpa [chars, quoted, writtenEntry, writtenItem, Entry.whole, Entry.fromName,
    Entry.field, Item.whole, Function.comp_def] using hspelled

theorem spelled_chars (style : Style) {v : Json} (plain : IsPlain v) (depth : Nat) :
    Spelled v ((chars style depth v).map CodePoint.char) := by
  induction plain generalizing depth with
  | null => rw [chars]; exact .null
  | bool b => cases b <;> rw [chars] <;> exact .bool _
  | int n =>
    obtain ⟨negative, k, rfl, hchars⟩ := chars_int style depth n
    rw [hchars, List.map_append, apply_ite (List.map CodePoint.char)]
    exact .int negative k
  | @text s unpaired =>
    rw [chars, quoted, List.map_append, List.map_cons]
    exact .text (quoted_points style.ascii unpaired)
  | @list xs items ih =>
    cases xs with
    | nil => rw [chars]; exact .emptyList allSpace_nil
    | cons x r => exact spelled_chars_list ih
  | @object fields names unpaired items ih =>
    cases fields with
    | nil => rw [chars]; exact .emptyObject allSpace_nil
    | cons f r => exact spelled_chars_object names unpaired ih

end Values

section Writable

variable {d : Dialect}

def Dialect.SpellsText (d : Dialect) (s : LooseText) : Prop :=
  Unpaired s.points ∧ (d.pairsOnly = true → s.toString?.isSome = true)

structure IsWritable (d : Dialect) (v : Json) : Prop where
  plain : IsPlain v
  spells : d.Spells v

@[simp] theorem spellsText_ofString (s : String) : d.SpellsText s :=
  ⟨unpaired_ofString s, fun _ => by rw [LooseText.toString?_ofString, Option.isSome_some]⟩

@[simp] theorem isWritable_null : IsWritable d .null := ⟨.null, fun _ => rfl⟩

@[simp] theorem isWritable_bool (b : Bool) : IsWritable d (.bool b) := ⟨.bool b, fun _ => rfl⟩

@[simp] theorem isWritable_int (n : Int) : IsWritable d (.int n) := ⟨.int n, fun _ => rfl⟩

theorem isWritable_text {s : LooseText} : IsWritable d (.text s) ↔ d.SpellsText s :=
  ⟨fun h => ⟨isPlain_text.mp h.plain, h.spells⟩, fun h => ⟨.text h.1, h.2⟩⟩

theorem isWritable_list {xs : List Json} : IsWritable d (.list xs) ↔ ∀ x ∈ xs, IsWritable d x := by
  constructor
  · intro h x hx
    exact ⟨isPlain_list.mp h.plain x hx, fun hd => isOrdinary_list.mp (h.spells hd) x hx⟩
  · intro h
    exact ⟨.list fun x hx => (h x hx).plain,
      fun hd => isOrdinary_list.mpr fun x hx => (h x hx).spells hd⟩

theorem isWritable_object {fields : Fields} : IsWritable d (.object fields) ↔
    (fields.map Prod.fst).Nodup ∧ ∀ f ∈ fields, d.SpellsText f.1 ∧ IsWritable d f.2 := by
  constructor
  · intro h
    obtain ⟨names, unpaired, items⟩ := isPlain_object.mp h.plain
    have hordinary := fun hd => isOrdinary_object.mp (h.spells hd)
    exact ⟨names, fun f hf => ⟨⟨unpaired f hf, fun hd => (hordinary hd f hf).1⟩,
      items f hf, fun hd => (hordinary hd f hf).2⟩⟩
  · rintro ⟨names, h⟩
    exact ⟨.object names (fun f hf => (h f hf).1.1) fun f hf => (h f hf).2.plain,
      fun hd => isOrdinary_object.mpr fun f hf => ⟨(h f hf).1.2 hd, (h f hf).2.spells hd⟩⟩

/-- A written value is read back where it is within the limits of the reader, and refused where it
is not. -/
theorem readLoose_write {v : Json} (style : Style) (h : IsWritable d v) :
    d.Takes v ∧ readLoose d (.ofString (write style v)) = .ok v ∨
      ¬d.Takes v ∧ ∃ e, readLoose d (.ofString (write style v)) = .error e := by
  have hcases := readLoose_cases (spelled_chars style h.plain 0) h.spells allSpace_nil allSpace_nil
  rw [List.nil_append, List.append_nil] at hcases
  rwa [write, LooseText.ofString, String.toList_ofList, LooseText.ofChars]

end Writable

end ChangeImpact.Json
