import ChangeImpact.Proofs.Json.Tokens

/-!
# Reading texts that stand for a value

A text that stands for a value is read as that value where the value is within the limits, and
refused where it is not. Reading takes no more fuel than the text is long, and it stops where the
text of the value ends, since what follows cannot go on with a number.
-/

namespace ChangeImpact.Json

section Ordinary

theorem isSome_toString? {s : LooseText} :
    s.toString?.isSome = true ↔ ∀ p ∈ s.points, p.isSurrogate = false := by
  obtain ⟨points⟩ := s
  rw [LooseText.toString?, Option.isSome_map]
  induction points with
  | nil => simp
  | cons p r ih =>
    rw [List.mapM_cons, List.forall_mem_cons, ← ih]
    cases p with
    | char c => cases r.mapM CodePoint.char? <;> simp [CodePoint.char?, CodePoint.isSurrogate]
    | surrogate n => simp [CodePoint.char?, CodePoint.isSurrogate]

theorem isOrdinary_list {xs : List Json} :
    (Json.list xs).isOrdinary = true ↔ ∀ x ∈ xs, x.isOrdinary = true := by
  rw [isOrdinary]
  induction xs with
  | nil => simp [areOrdinary]
  | cons x r ih => rw [areOrdinary, Bool.and_eq_true, ih, List.forall_mem_cons]

theorem isOrdinary_object {fields : Fields} : (Json.object fields).isOrdinary = true ↔
    ∀ f ∈ fields, f.1.toString?.isSome = true ∧ f.2.isOrdinary = true := by
  rw [isOrdinary]
  induction fields with
  | nil => simp [areOrdinaryFields]
  | cons f r ih =>
    obtain ⟨k, v⟩ := f
    rw [areOrdinaryFields, Bool.and_eq_true, Bool.and_eq_true, ih, List.forall_mem_cons]

/-- Where surrogates must come in pairs, no text of the value has one that stands alone. -/
def Dialect.Spells (d : Dialect) (v : Json) : Prop := d.pairsOnly = true → v.isOrdinary = true

theorem Dialect.spells_lenient (nesting : Nat) (v : Json) : (Dialect.lenient nesting).Spells v := nofun

end Ordinary

section Values

variable {d : Dialect}

structure Settled {α : Type} (within : Prop) (value : α) (rest : List CodePoint) (r : Read α) :
    Prop where
  read : within → r = .ok (value, rest)
  refused : ¬within → ∃ e, r = .error e

theorem Settled.map {α β : Type} {within : Prop} {value : α} {rest : List CodePoint} {r : Read α}
    (h : Settled within value rest r) (f : α → β) :
    Settled within (f value) rest (r.map (Prod.map f id)) := by
  constructor
  · intro hw
    rw [h.read hw]
    rfl
  · intro hw
    obtain ⟨e, he⟩ := h.refused hw
    exact ⟨e, by rw [he]; rfl⟩

section Combined

variable {α β : Type} {within more : Prop} {value : α} {whole : β} {between rest : List CodePoint}
  {r : Read α} {r' : Read β}

theorem Settled.last (h : Settled within value between r)
    (failed : ∀ {e}, r = .error e → r' = .error e)
    (done : r = .ok (value, between) → r' = .ok (whole, rest)) : Settled within whole rest r' := by
  constructor
  · intro hw
    exact done (h.read hw)
  · intro hw
    obtain ⟨e, he⟩ := h.refused hw
    exact ⟨e, failed he⟩

/-- What is read first decides, and where it is within the limits so does what is read next. -/
theorem Settled.next (h : Settled within value between r)
    (failed : ∀ {e}, r = .error e → r' = .error e)
    (next : r = .ok (value, between) → Settled more whole rest r') :
    Settled (within ∧ more) whole rest r' := by
  by_cases hw : within
  · have hnext := next (h.read hw)
    exact ⟨fun hall => hnext.read hall.2, fun hnot => hnext.refused fun hm => hnot ⟨hw, hm⟩⟩
  · obtain ⟨e, he⟩ := h.refused hw
    exact ⟨fun hall => absurd hall.1 hw, fun _ => ⟨e, failed he⟩⟩

theorem Settled.deeper (h : Settled within value rest r) (room : Nat) :
    Settled (0 < room ∧ within) value rest (if room = 0 then .error .tooDeep else r) := by
  by_cases hroom : room = 0
  · rw [if_pos hroom]
    exact ⟨fun hall => absurd hroom (Nat.ne_of_gt hall.1), fun _ => ⟨_, rfl⟩⟩
  · rw [if_neg hroom]
    exact ⟨fun hall => h.read hall.2,
      fun hnot => h.refused fun hw => hnot ⟨Nat.pos_of_ne_zero hroom, hw⟩⟩

/-- An empty value is one more level where the dialect counts it. -/
theorem settled_empty (room : Nat) (v : Json) (rest : List CodePoint) :
    Settled (d.countsEmpty = true → 0 < room) v rest
      (if d.countsEmpty && room = 0 then .error .tooDeep else .ok (v, rest)) := by
  by_cases hfull : (d.countsEmpty && room = 0) = true
  · rw [if_pos hfull]
    rw [Bool.and_eq_true, decide_eq_true_eq] at hfull
    exact ⟨fun h => absurd hfull.2 (Nat.ne_of_gt (h hfull.1)), fun _ => ⟨_, rfl⟩⟩
  · rw [if_neg hfull]
    rw [Bool.and_eq_true, decide_eq_true_eq, not_and] at hfull
    exact ⟨fun _ => rfl, fun h => absurd (fun hd => Nat.pos_of_ne_zero (hfull hd)) h⟩

theorem counted_or_full {α : Type} (counted : Bool) (room : Nat) (r : Read α) :
    (if counted && room = 0 then .error .tooDeep else if room = 0 then .error .tooDeep else r) =
      if room = 0 then .error .tooDeep else r := by
  by_cases hroom : room = 0 <;> simp [hroom]

end Combined

def Reads (d : Dialect) (v : Json) (s : List CodePoint) : Prop :=
  ∀ (n room : Nat) (rest : List CodePoint), s.length ≤ n → Ends rest →
    Settled (Fits d room v) v rest (readValue d n room (s ++ rest))

def Starts (s : List CodePoint) : Prop :=
  ∃ p t, s = p :: t ∧ isSpace p = false ∧ p ≠ .char ']' ∧ p.toNat < 0x80

theorem Spelled.starts {v : Json} {s : List CodePoint} (h : Spelled v s) : Starts s := by
  cases h with
  | null => exact ⟨_, _, rfl, by decide, by decide, by decide⟩
  | bool b => cases b <;> exact ⟨_, _, rfl, by decide, by decide, by decide⟩
  | int negative n =>
    cases negative with
    | true => exact ⟨_, _, rfl, by decide, by decide, by decide⟩
    | false =>
      cases hd : Decimal.digits n with
      | nil => exact absurd hd (Text.digits_ne_nil n)
      | cons c t =>
        have hdigit : ∀ d < 10, isSpace (.char (Nat.digitChar d)) = false ∧
            CodePoint.char (Nat.digitChar d) ≠ .char ']' ∧
            (CodePoint.char (Nat.digitChar d)).toNat < 0x80 := by decide
        obtain ⟨d, hlt, rfl⟩ := Text.exists_digitChar n c (hd ▸ List.mem_cons_self)
        exact ⟨_, _, rfl, hdigit d hlt⟩
  | text quoted => exact ⟨_, _, rfl, by decide, by decide, by decide⟩
  | emptyList space => exact ⟨_, _, rfl, by decide, by decide, by decide⟩
  | list spaced spelled => exact ⟨_, _, rfl, by decide, by decide, by decide⟩
  | emptyObject space => exact ⟨_, _, rfl, by decide, by decide, by decide⟩
  | object spaced names quoted spelled => exact ⟨_, _, rfl, by decide, by decide, by decide⟩

theorem ends_more (items : List Item) (rest : List CodePoint) :
    Ends (Item.more items ++ .char ']' :: rest) := by
  cases items with
  | nil => exact ends_of_char _ (.inr (.inr (.inl rfl)))
  | cons i more => exact ends_of_char _ (.inr (.inl rfl))

theorem ends_moreFields (entries : List Entry) (rest : List CodePoint) :
    Ends (Entry.more entries ++ .char '\x7d' :: rest) := by
  cases entries with
  | nil => exact ends_of_char _ (.inr (.inr (.inr rfl)))
  | cons e more => exact ends_of_char _ (.inr (.inl rfl))

theorem readValue_negative {p : CodePoint} (h : isDigit p = true) (n room : Nat)
    (s : List CodePoint) : readValue d (n + 1) room (.char '-' :: p :: s) =
      readNumber d true (p :: s) := by
  rw [readValue, readLiteral?_negative s h]

theorem readValue_digit {p : CodePoint} (h : isDigit p = true) (n room : Nat)
    (s : List CodePoint) :
    readValue d (n + 1) room (p :: s) = readNumber d false (p :: s) := by
  have hne : ∀ c : Char, c.isDigit = false → p ≠ .char c := by
    intro c hc heq
    rw [heq] at h
    exact Bool.false_ne_true (hc.symm.trans h)
  have hstarts : ∀ q ∈ ['n', 't', 'f', 'N', 'I', '-'].map CodePoint.char, isDigit q = false := by
    decide
  have hliteral : readLiteral? (p :: s) = none :=
    readLiteral?_of_head s fun hmem => Bool.false_ne_true ((hstarts p hmem).symm.trans h)
  rw [readValue, hliteral]
  all_goals
    intro r heq
    exact absurd (List.cons.inj heq).1 (hne _ rfl)

theorem reads_int (negative : Bool) (n : Nat) : Reads d (.int (Text.signed negative n))
    ((if negative then [.char '-'] else []) ++ (Decimal.digits n).map .char) := by
  intro k room rest hk hrest
  have hfits : Fits d room (.int (Text.signed negative n)) ↔
      isOverlong d true (Decimal.digits n) = false := by
    rw [fits_int, isOverlong_digits, Text.natAbs_signed]
  obtain ⟨c, t, hd⟩ := List.exists_cons_of_ne_nil (Text.digits_ne_nil n)
  have hdigit : isDigit (.char c) = true := by
    refine isDigit_of_mem_digits (n := n) ?_
    rw [hd]
    exact List.mem_cons_self
  have hpos : 0 < k := by
    rw [List.length_append, List.length_map, hd, List.length_cons] at hk
    omega
  obtain ⟨k, rfl⟩ := Nat.exists_eq_add_one.mpr hpos
  have hvalue : readValue d (k + 1) room
      ((if negative then [.char '-'] else []) ++ (Decimal.digits n).map .char ++ rest) =
      readNumber d negative ((Decimal.digits n).map .char ++ rest) := by
    rw [hd]
    cases negative with
    | true => exact readValue_negative hdigit _ _ _
    | false => exact readValue_digit hdigit _ _ _
  rw [hvalue, readNumber_digits negative n hrest]
  constructor
  · intro h
    rw [if_pos (hfits.mp h)]
  · intro h
    exact ⟨.digitLimit, if_neg (mt hfits.mpr h)⟩

theorem reads_text {ps s : List CodePoint} (quoted : QuotedIn d ps s) :
    Reads d (.text ⟨ps⟩) (.char '"' :: (s ++ [.char '"'])) := by
  intro k room rest hk hrest
  obtain ⟨k, rfl⟩ := Nat.exists_eq_add_one.mpr (Nat.zero_lt_of_lt hk)
  have hread := readQuoted_of_quoted (n := (s ++ .char '"' :: rest).length + 1) quoted
    (by rw [List.length_append]; omega) rest
  have hvalue : readValue d (k + 1) room (.char '"' :: (s ++ [.char '"']) ++ rest) =
      .ok (.text ⟨ps⟩, rest) := by
    rw [List.cons_append, List.append_assoc, List.singleton_append, readValue,
      readLiteral?_of_head _ (by decide), hread]
    rfl
  exact ⟨fun _ => hvalue, fun h => absurd (.text _) h⟩

theorem reads_of_ok {v : Json} {s : List CodePoint} (hs : s ≠ []) (hfits : ∀ room, Fits d room v)
    (h : ∀ n room rest, readValue d (n + 1) room (s ++ rest) = .ok (v, rest)) :
    Reads d v s := by
  intro k room rest hk _
  obtain ⟨k, rfl⟩ := Nat.exists_eq_add_one.mpr
    (Nat.lt_of_lt_of_le (List.length_pos_iff.mpr hs) hk)
  exact ⟨fun _ => h k room rest, fun hnot => absurd (hfits room) hnot⟩

theorem readItems_error {n room : Nat} {s : List CodePoint} {e : ReadError}
    (h : readValue d n room s = .error e) : readItems d (n + 1) room s = .error e := by
  rw [readItems, h]

theorem readItems_close {n room : Nat} {s right rest : List CodePoint} {x : Json}
    (h : readValue d n room s = .ok (x, right ++ .char ']' :: rest)) (hright : AllSpace right) :
    readItems d (n + 1) room s = .ok ([x], rest) := by
  rw [readItems, h]
  simp only [skipSpace_append hright, skipSpace_cons (p := .char ']') rfl]

theorem readItems_comma {n room : Nat} {s right rest : List CodePoint} {x : Json}
    (h : readValue d n room s = .ok (x, right ++ .char ',' :: rest)) (hright : AllSpace right) :
    readItems d (n + 1) room s =
      (readItems d n room (skipSpace rest)).map (Prod.map (x :: ·) id) := by
  rw [readItems, h]
  simp only [skipSpace_append hright, skipSpace_cons (p := .char ',') rfl]
  rfl

theorem skipSpace_whole {i : Item} (spaced : i.IsSpaced) {p : CodePoint} {t : List CodePoint}
    (start : i.text = p :: t) (hp : isSpace p = false) (s : List CodePoint) :
    skipSpace (i.whole ++ s) = i.text ++ (i.right ++ s) := by
  rw [Item.whole, List.append_assoc, List.append_assoc, skipSpace_append spaced.1, start,
    List.cons_append, skipSpace_cons hp]

structure Item.Reads (d : Dialect) (i : Item) : Prop where
  spaced : i.IsSpaced
  starts : Starts i.text
  reads : Json.Reads d i.value i.text

theorem readItems_of_reads (room : Nat) {more : List Item} {first : Item} {n : Nat}
    (h : ∀ i ∈ first :: more, i.Reads d)
    (hn : (first.text ++ first.right ++ Item.more more).length < n) (rest : List CodePoint) :
    Settled (∀ i ∈ first :: more, Fits d room i.value) ((first :: more).map Item.value) rest
      (readItems d n room
        (first.text ++ (first.right ++ (Item.more more ++ .char ']' :: rest)))) := by
  -- Each item takes one unit of fuel and at least one character.
  induction more generalizing first n with
  | nil =>
    obtain ⟨k, rfl⟩ := Nat.exists_eq_add_one.mpr (Nat.zero_lt_of_lt hn)
    obtain ⟨spaced, -, reads⟩ := h first List.mem_cons_self
    have hlen : first.text.length ≤ k := by
      rw [List.length_append, List.length_append] at hn
      omega
    have hfirst := reads k room (first.right ++ .char ']' :: rest) hlen
      (.of_allSpace spaced.2 (ends_more [] rest))
    rw [List.forall_mem_singleton]
    exact hfirst.last readItems_error fun hread => readItems_close hread spaced.2
  | cons second more ih =>
    obtain ⟨k, rfl⟩ := Nat.exists_eq_add_one.mpr (Nat.zero_lt_of_lt hn)
    obtain ⟨spaced, -, reads⟩ := h first List.mem_cons_self
    have hmore := List.forall_mem_of_forall_mem_cons h
    obtain ⟨spaced2, ⟨p, t, start, hp, -⟩, -⟩ := hmore second List.mem_cons_self
    have hlens : first.text.length ≤ k ∧
        (second.text ++ second.right ++ Item.more more).length < k := by
      simp only [Item.more, Item.whole, List.flatMap_cons, List.length_append,
        List.length_cons] at hn ⊢
      omega
    have hfirst := reads k room _ hlens.1
      (.of_allSpace spaced.2 (ends_more (second :: more) rest))
    have hshape : Item.more (second :: more) ++ .char ']' :: rest =
        .char ',' :: (second.whole ++ (Item.more more ++ .char ']' :: rest)) := by
      simp only [Item.more, List.flatMap_cons, List.cons_append, List.append_assoc]
    rw [hshape] at hfirst ⊢
    rw [List.forall_mem_cons]
    refine hfirst.next readItems_error fun hread => ?_
    rw [readItems_comma hread spaced.2, skipSpace_whole spaced2 start hp]
    exact (ih hmore hlens.2).map (first.value :: ·)

end Values

section Fields

variable {d : Dialect}

theorem put_append {name : LooseText} {done : Fields} (h : name ∉ done.map Prod.fst) (v : Json) :
    put name v done = done ++ [(name, v)] := by
  induction done with
  | nil => rfl
  | cons f r ih =>
    rw [List.map_cons, List.mem_cons, not_or] at h
    have hne : (f.1 == name) = false := beq_eq_false_iff_ne.mpr (Ne.symm h.1)
    rw [put, hne, if_neg Bool.false_ne_true, ih h.2, List.cons_append]

variable {name : LooseText} {nameText behind s right rest : List CodePoint} {n room : Nat}
  {done : Fields}

theorem readFields_name (quoted : QuotedIn d name.points nameText) (space : AllSpace behind) :
    readFields d (n + 1) room done
        (.char '"' :: (nameText ++ .char '"' :: (behind ++ .char ':' :: s))) =
      match readValue d n room (skipSpace s) with
      | .error e => .error e
      | .ok (v, r) =>
        match skipSpace r with
        | .char ',' :: r2 => readFields d n room (put name v done) (skipSpace r2)
        | .char '\x7d' :: r2 => .ok (put name v done, r2)
        | _ => .error .malformed := by
  have hread := readQuoted_of_quoted
    (n := (nameText ++ .char '"' :: (behind ++ .char ':' :: s)).length + 1) quoted
    (by rw [List.length_append]; omega) (behind ++ .char ':' :: s)
  have hskip : skipSpace (behind ++ .char ':' :: s) = .char ':' :: s := by
    rw [skipSpace_append space, skipSpace_cons rfl]
  rw [readFields, hread]
  dsimp only
  rw [hskip]
  rfl

theorem readFields_error {e : ReadError} (quoted : QuotedIn d name.points nameText)
    (space : AllSpace behind) (h : readValue d n room (skipSpace s) = .error e) :
    readFields d (n + 1) room done
      (.char '"' :: (nameText ++ .char '"' :: (behind ++ .char ':' :: s))) = .error e := by
  rw [readFields_name quoted space, h]

theorem readFields_close {v : Json} (quoted : QuotedIn d name.points nameText)
    (space : AllSpace behind)
    (h : readValue d n room (skipSpace s) = .ok (v, right ++ .char '\x7d' :: rest))
    (hright : AllSpace right) (hname : name ∉ done.map Prod.fst) :
    readFields d (n + 1) room done
        (.char '"' :: (nameText ++ .char '"' :: (behind ++ .char ':' :: s))) =
      .ok (done ++ [(name, v)], rest) := by
  rw [readFields_name quoted space, h]
  simp only [put_append hname, skipSpace_append hright, skipSpace_cons (p := .char '\x7d') rfl]

theorem readFields_comma {v : Json} (quoted : QuotedIn d name.points nameText)
    (space : AllSpace behind)
    (h : readValue d n room (skipSpace s) = .ok (v, right ++ .char ',' :: rest))
    (hright : AllSpace right) (hname : name ∉ done.map Prod.fst) :
    readFields d (n + 1) room done
        (.char '"' :: (nameText ++ .char '"' :: (behind ++ .char ':' :: s))) =
      readFields d n room (done ++ [(name, v)]) (skipSpace rest) := by
  rw [readFields_name quoted space, h]
  simp only [put_append hname, skipSpace_append hright, skipSpace_cons (p := .char ',') rfl]

end Fields

section Objects

variable {d : Dialect}

structure Entry.Reads (d : Dialect) (e : Entry) : Prop where
  space : AllSpace e.behind
  before : AllSpace e.before
  quoted : QuotedIn d e.name.points e.nameText
  item : e.item.Reads d

theorem Entry.append_fromName (e : Entry) (s : List CodePoint) : e.fromName ++ s =
    .char '"' :: (e.nameText ++ .char '"' ::
      (e.behind ++ .char ':' :: (e.item.whole ++ s))) := by
  simp only [Entry.fromName, List.cons_append, List.append_assoc]

theorem first_notMem_done {done : Fields} {first : Entry} {more : List Entry}
    (names : (done.map Prod.fst ++ (first :: more).map Entry.name).Nodup) :
    first.name ∉ done.map Prod.fst :=
  fun hmem => (List.nodup_append.mp names).2.2 _ hmem _ List.mem_cons_self rfl

theorem readFields_of_reads (room : Nat) {more : List Entry} {first : Entry} {n : Nat} {done : Fields}
    (h : ∀ e ∈ first :: more, e.Reads d)
    (names : (done.map Prod.fst ++ (first :: more).map Entry.name).Nodup)
    (hn : (first.fromName ++ Entry.more more).length < n) (rest : List CodePoint) :
    Settled (∀ e ∈ first :: more, Fits d room e.item.value)
      (done ++ (first :: more).map Entry.field) rest
      (readFields d n room done
        (first.fromName ++ (Entry.more more ++ .char '\x7d' :: rest))) := by
  -- The fields go behind `done` one by one, so the induction is for every `done`.
  induction more generalizing first n done with
  | nil =>
    obtain ⟨k, rfl⟩ := Nat.exists_eq_add_one.mpr (Nat.zero_lt_of_lt hn)
    obtain ⟨space, -, quoted, spaced, ⟨p, t, start, hp, -⟩, reads⟩ := h first List.mem_cons_self
    have hlen : first.item.text.length ≤ k := by
      simp only [Entry.fromName, Item.whole, List.length_append, List.length_cons] at hn
      omega
    have hfirst := reads k room (first.item.right ++ .char '\x7d' :: rest) hlen
      (.of_allSpace spaced.2 (ends_moreFields [] rest))
    rw [← skipSpace_whole spaced start hp] at hfirst
    rw [List.forall_mem_singleton, Entry.append_fromName]
    exact hfirst.last (readFields_error quoted space) fun hread =>
      readFields_close quoted space hread spaced.2 (first_notMem_done names)
  | cons second more ih =>
    obtain ⟨k, rfl⟩ := Nat.exists_eq_add_one.mpr (Nat.zero_lt_of_lt hn)
    obtain ⟨space, -, quoted, spaced, ⟨p, t, start, hp, -⟩, reads⟩ := h first List.mem_cons_self
    have hmore := List.forall_mem_of_forall_mem_cons h
    have hbefore := (hmore second List.mem_cons_self).before
    have hlens : first.item.text.length ≤ k ∧
        (second.fromName ++ Entry.more more).length < k := by
      simp only [Entry.more, Entry.whole, Entry.fromName, Item.whole, List.flatMap_cons,
        List.length_append, List.length_cons] at hn ⊢
      omega
    have hfirst := reads k room _ hlens.1
      (.of_allSpace spaced.2 (ends_moreFields (second :: more) rest))
    have hshape : Entry.more (second :: more) ++ .char '\x7d' :: rest =
        .char ',' :: (second.before ++
          (second.fromName ++ (Entry.more more ++ .char '\x7d' :: rest))) := by
      simp only [Entry.more, Entry.whole, List.flatMap_cons, List.cons_append, List.append_assoc]
    have hnames : ((done ++ [first.field]).map Prod.fst ++
        (second :: more).map Entry.name).Nodup := by
      rw [List.map_append, List.append_assoc]
      exact names
    have hsecond := ih hmore hnames hlens.2
    rw [List.append_assoc, List.singleton_append] at hsecond
    rw [← skipSpace_whole spaced start hp, hshape] at hfirst
    rw [Entry.append_fromName, hshape, List.forall_mem_cons]
    refine hfirst.next (readFields_error quoted space) fun hread => ?_
    rw [readFields_comma quoted space hread spaced.2 (first_notMem_done names),
      skipSpace_append hbefore]
    exact hsecond

end Objects

section Nested

variable {d : Dialect}

theorem reads_list {first : Item} {more : List Item} (h : ∀ i ∈ first :: more, i.Reads d) :
    Reads d (.list ((first :: more).map Item.value))
      (.char '[' :: (first.whole ++ Item.more more ++ [.char ']'])) := by
  intro n room rest hn _
  obtain ⟨k, rfl⟩ := Nat.exists_eq_add_one.mpr (Nat.zero_lt_of_lt hn)
  obtain ⟨spaced, ⟨p, t, start, hp, hbracket, -⟩, -⟩ := h first List.mem_cons_self
  have hlen : (first.text ++ first.right ++ Item.more more).length < k := by
    simp only [Item.whole, List.length_append, List.length_cons, List.length_nil] at hn ⊢
    omega
  have hitems := (readItems_of_reads (room - 1) h hlen rest).map Json.list
  have hread : readValue d (k + 1) room
      (.char '[' :: (first.whole ++ Item.more more ++ [.char ']']) ++ rest) =
      if room = 0 then .error .tooDeep
      else (readItems d k (room - 1)
        (first.text ++ (first.right ++ (Item.more more ++ .char ']' :: rest)))).map
          (Prod.map Json.list id) := by
    rw [List.cons_append, readValue, readLiteral?_of_head _ (by decide)]
    simp only [List.append_assoc, List.singleton_append, skipSpace_whole spaced start hp]
    rw [start, ← counted_or_full d.countsEmpty room]
    congr 1
    split
    next heq => exact absurd (List.cons.inj heq).1 hbracket
    next => rfl
  rw [hread, List.map_cons, fits_list_cons, ← List.map_cons, List.forall_mem_map]
  exact hitems.deeper room

theorem Entry.skipSpace_whole {e : Entry} (h : e.Reads d) (s : List CodePoint) :
    skipSpace (e.whole ++ s) = e.fromName ++ s := by
  rw [Entry.whole, List.append_assoc, skipSpace_append h.before, Entry.append_fromName,
    skipSpace_cons rfl]

theorem reads_object {first : Entry} {more : List Entry} (h : ∀ e ∈ first :: more, e.Reads d)
    (names : ((first :: more).map Entry.name).Nodup) :
    Reads d (.object ((first :: more).map Entry.field))
      (.char '\x7b' :: (first.whole ++ Entry.more more ++ [.char '\x7d'])) := by
  intro n room rest hn _
  obtain ⟨k, rfl⟩ := Nat.exists_eq_add_one.mpr (Nat.zero_lt_of_lt hn)
  have hlen : (first.fromName ++ Entry.more more).length < k := by
    simp only [Entry.whole, List.length_append, List.length_cons, List.length_nil] at hn ⊢
    omega
  have hnames : (([] : Fields).map Prod.fst ++ (first :: more).map Entry.name).Nodup := names
  have hfields := (readFields_of_reads (room - 1) h hnames hlen rest).map Json.object
  have hread : readValue d (k + 1) room
      (.char '\x7b' :: (first.whole ++ Entry.more more ++ [.char '\x7d']) ++ rest) =
      if room = 0 then .error .tooDeep
      else (readFields d k (room - 1) []
        (first.fromName ++ (Entry.more more ++ .char '\x7d' :: rest))).map
          (Prod.map Json.object id) := by
    rw [List.cons_append, readValue, readLiteral?_of_head _ (by decide)]
    simp only [List.append_assoc, List.singleton_append,
      Entry.skipSpace_whole (h first List.mem_cons_self)]
    rw [← counted_or_full d.countsEmpty room]
    rfl
  rw [hread, List.map_cons, fits_object_cons, ← List.map_cons, List.forall_mem_map]
  exact hfields.deeper room

theorem readValue_literal {s : List CodePoint} {found : Json × List CodePoint}
    (h : readLiteral? s = some found) (n room : Nat) :
    readValue d (n + 1) room s = .ok found := by
  rw [readValue.eq_def]
  simp only [h]

theorem reads_emptyList {blanks : List CodePoint} (space : AllSpace blanks) :
    Reads d (.list []) (.char '[' :: (blanks ++ [.char ']'])) := by
  intro n room rest hn _
  obtain ⟨k, rfl⟩ := Nat.exists_eq_add_one.mpr (Nat.zero_lt_of_lt hn)
  rw [List.cons_append, readValue, readLiteral?_of_head _ (by decide), fits_list_nil]
  simp only [List.append_assoc, List.singleton_append, skipSpace_append space,
    skipSpace_cons (p := .char ']') rfl]
  exact settled_empty room _ rest

theorem reads_emptyObject {blanks : List CodePoint} (space : AllSpace blanks) :
    Reads d (.object []) (.char '\x7b' :: (blanks ++ [.char '\x7d'])) := by
  intro n room rest hn _
  obtain ⟨k, rfl⟩ := Nat.exists_eq_add_one.mpr (Nat.zero_lt_of_lt hn)
  rw [List.cons_append, readValue, readLiteral?_of_head _ (by decide), fits_object_nil]
  simp only [List.append_assoc, List.singleton_append, skipSpace_append space,
    skipSpace_cons (p := .char '\x7d') rfl]
  exact settled_empty room _ rest

theorem Spelled.reads {v : Json} {s : List CodePoint} (h : Spelled v s) (spells : d.Spells v) :
    Reads d v s := by
  induction h with
  | null =>
    refine reads_of_ok (by decide) (fun _ => .null) fun n room rest => ?_
    exact readValue_literal (readLiteral?_null rest) n room
  | bool b =>
    refine reads_of_ok (by cases b <;> decide) (fun _ => .bool b) fun n room rest => ?_
    exact readValue_literal (readLiteral?_bool b rest) n room
  | int negative n => exact reads_int negative n
  | text quoted => exact reads_text ⟨quoted, fun hd => isSome_toString?.mp (spells hd)⟩
  | emptyList space => exact reads_emptyList space
  | list spaced spelled ih =>
    refine reads_list fun i hi => ⟨spaced i hi, (spelled i hi).starts, ih i hi fun hd => ?_⟩
    exact isOrdinary_list.mp (spells hd) _ (List.mem_map_of_mem hi)
  | emptyObject space => exact reads_emptyObject space
  | object spaced names quoted spelled ih =>
    refine reads_object (fun e he => ?_) names
    obtain ⟨before, behind, item⟩ := spaced e he
    have hfield : d.pairsOnly = true → e.field.1.toString?.isSome = true ∧
        e.field.2.isOrdinary = true := fun hd =>
      isOrdinary_object.mp (spells hd) _ (List.mem_map_of_mem he)
    exact ⟨behind, before, ⟨quoted e he, fun hd => isSome_toString?.mp (hfield hd).1⟩,
      item, (spelled e he).starts, ih e he fun hd => (hfield hd).2⟩

/-- A whole text that stands for a value, with blanks around it, is read as the value where the
value is within the limits, and refused where it is not. -/
theorem readLoose_cases {v : Json} {s left right : List CodePoint} (h : Spelled v s)
    (spells : d.Spells v) (hleft : AllSpace left) (hright : AllSpace right) :
    d.Takes v ∧ readLoose d ⟨left ++ s ++ right⟩ = .ok v ∨
      ¬d.Takes v ∧ ∃ e, readLoose d ⟨left ++ s ++ right⟩ = .error e := by
  obtain ⟨p, t, start, hp, -⟩ := h.starts
  have hskip : skipSpace (left ++ s ++ right) = s ++ right := by
    rw [List.append_assoc, skipSpace_append hleft, start, List.cons_append, skipSpace_cons hp]
  have hread := h.reads spells ((left ++ s ++ right).length + 1) d.depthLimit right
    (by simp only [List.length_append]; omega)
    (by simpa using ends_nil.of_allSpace hright)
  rw [readLoose, hskip]
  by_cases hfits : d.Takes v
  · rw [hread.read hfits]
    exact .inl ⟨hfits, by simp only [skipSpace_of_allSpace hright, List.isEmpty_nil, if_true]⟩
  · obtain ⟨e, he⟩ := hread.refused hfits
    rw [he]
    exact .inr ⟨hfits, e, rfl⟩

theorem readLoose_of_spelled {v : Json} {s left right : List CodePoint} (h : Spelled v s)
    (spells : d.Spells v) (hleft : AllSpace left) (hright : AllSpace right) :
    readLoose d ⟨left ++ s ++ right⟩ = .ok v ↔ d.Takes v := by
  rcases readLoose_cases h spells hleft hright with ⟨hfits, hread⟩ | ⟨hfits, e, hread⟩
  · exact iff_of_true hread hfits
  · rw [hread]
    exact iff_of_false nofun hfits

end Nested

end ChangeImpact.Json
