import ChangeImpact.Json.Reader
import ChangeImpact.Proofs.Text.Integer

/-!
# Texts that stand for a value

`Spelled v s` says that by the grammar of the format the text `s` stands for the value `v`, which
holds no floating-point number. Blanks may stand around every item, name and colon. A character
between quotes is written by itself, by a short escape or by number, and two numbers are one
character where they are a high and a low surrogate in a row. `Fits` are the limits up to which a
dialect of the reader reads a value.
-/

namespace ChangeImpact.Json

def AllSpace (s : List CodePoint) : Prop := ∀ p ∈ s, isSpace p = true

def word (s : String) : List CodePoint := (LooseText.ofString s).points

def startsWithLow : List CodePoint → Bool
  | .char '\\' :: .char 'u' :: r => (hexUnit? r).any fun u => isLow u.1
  | _ => false

inductive Quoted : List CodePoint → List CodePoint → Prop
  | nil : Quoted [] []
  | plain {p : CodePoint} {ps s : List CodePoint} (visible : 32 ≤ p.toNat)
      (quote : p ≠ .char '"') (backslash : p ≠ .char '\\') (more : Quoted ps s) :
      Quoted (p :: ps) (p :: s)
  | escape {e c : Char} {ps s : List CodePoint} (known : escapes.lookup e = some c)
      (more : Quoted ps s) : Quoted (.char c :: ps) (.char '\\' :: .char e :: s)
  | unit {n : Nat} {digits ps s : List CodePoint} (hex : hexUnit? digits = some (n, []))
      (alone : isHigh n = true → startsWithLow s = false) (more : Quoted ps s) :
      Quoted (.ofNat n :: ps) (.char '\\' :: .char 'u' :: (digits ++ s))
  | pair {high low : Nat} {digits digits' ps s : List CodePoint}
      (hex : hexUnit? digits = some (high, [])) (hex' : hexUnit? digits' = some (low, []))
      (first : isHigh high = true) (second : isLow low = true) (more : Quoted ps s) :
      Quoted (joined high low :: ps)
        (.char '\\' :: .char 'u' :: (digits ++ .char '\\' :: .char 'u' :: (digits' ++ s)))

structure Item where
  value : Json
  left : List CodePoint
  text : List CodePoint
  right : List CodePoint

namespace Item

def whole (i : Item) : List CodePoint := i.left ++ i.text ++ i.right

def IsSpaced (i : Item) : Prop := AllSpace i.left ∧ AllSpace i.right

def more (items : List Item) : List CodePoint := items.flatMap fun i => .char ',' :: i.whole

end Item

structure Entry where
  name : LooseText
  before : List CodePoint
  nameText : List CodePoint
  behind : List CodePoint
  item : Item

namespace Entry

def field (e : Entry) : LooseText × Json := (e.name, e.item.value)

def fromName (e : Entry) : List CodePoint :=
  .char '"' :: (e.nameText ++ .char '"' :: (e.behind ++ .char ':' :: e.item.whole))

def whole (e : Entry) : List CodePoint := e.before ++ e.fromName

def IsSpaced (e : Entry) : Prop := AllSpace e.before ∧ AllSpace e.behind ∧ e.item.IsSpaced

def more (entries : List Entry) : List CodePoint :=
  entries.flatMap fun e => .char ',' :: e.whole

end Entry

inductive Spelled : Json → List CodePoint → Prop
  | null : Spelled .null (word "null")
  | bool (b : Bool) : Spelled (.bool b) (word (if b then "true" else "false"))
  | int (negative : Bool) (n : Nat) : Spelled (.int (Text.signed negative n))
      ((if negative then [.char '-'] else []) ++ (Decimal.digits n).map .char)
  | text {ps s : List CodePoint} (quoted : Quoted ps s) :
      Spelled (.text ⟨ps⟩) (.char '"' :: (s ++ [.char '"']))
  | emptyList {blanks : List CodePoint} (space : AllSpace blanks) :
      Spelled (.list []) (.char '[' :: (blanks ++ [.char ']']))
  | list {first : Item} {more : List Item} (spaced : ∀ i ∈ first :: more, i.IsSpaced)
      (spelled : ∀ i ∈ first :: more, Spelled i.value i.text) :
      Spelled (.list ((first :: more).map Item.value))
        (.char '[' :: (first.whole ++ Item.more more ++ [.char ']']))
  | emptyObject {blanks : List CodePoint} (space : AllSpace blanks) :
      Spelled (.object []) (.char '\x7b' :: (blanks ++ [.char '\x7d']))
  | object {first : Entry} {more : List Entry} (spaced : ∀ e ∈ first :: more, e.IsSpaced)
      (names : ((first :: more).map Entry.name).Nodup)
      (quoted : ∀ e ∈ first :: more, Quoted e.name.points e.nameText)
      (spelled : ∀ e ∈ first :: more, Spelled e.item.value e.item.text) :
      Spelled (.object ((first :: more).map Entry.field))
        (.char '\x7b' :: (first.whole ++ Entry.more more ++ [.char '\x7d']))

inductive Fits (d : Dialect) : Nat → Json → Prop
  | null {room : Nat} : Fits d room .null
  | bool {room : Nat} (b : Bool) : Fits d room (.bool b)
  | int {room : Nat} {n : Int} (readable : Text.IsReadable n.natAbs) : Fits d room (.int n)
  | real {room : Nat} (x : Binary64) : Fits d room (.real x)
  | text {room : Nat} (s : LooseText) : Fits d room (.text s)
  | emptyList {room : Nat} (uncounted : d.countsEmpty = false) : Fits d room (.list [])
  | list {room : Nat} {xs : List Json} (items : ∀ x ∈ xs, Fits d room x) :
      Fits d (room + 1) (.list xs)
  | emptyObject {room : Nat} (uncounted : d.countsEmpty = false) : Fits d room (.object [])
  | object {room : Nat} {fields : Fields} (items : ∀ f ∈ fields, Fits d room f.2) :
      Fits d (room + 1) (.object fields)

def Dialect.Takes (d : Dialect) (v : Json) : Prop := Fits d d.depthLimit v

section Fits

variable {d : Dialect} {room : Nat}

theorem fits_list_cons {x : Json} {xs : List Json} :
    Fits d room (.list (x :: xs)) ↔ 0 < room ∧ ∀ y ∈ x :: xs, Fits d (room - 1) y := by
  constructor
  · intro h
    cases h with
    | list items => exact ⟨Nat.succ_pos _, items⟩
  · intro h
    obtain ⟨hpos, hitems⟩ := h
    obtain ⟨k, rfl⟩ := Nat.exists_eq_add_one.mpr hpos
    exact .list hitems

theorem fits_object_cons {f : LooseText × Json} {fields : Fields} :
    Fits d room (.object (f :: fields)) ↔ 0 < room ∧ ∀ g ∈ f :: fields, Fits d (room - 1) g.2 := by
  constructor
  · intro h
    cases h with
    | object items => exact ⟨Nat.succ_pos _, items⟩
  · intro h
    obtain ⟨hpos, hitems⟩ := h
    obtain ⟨k, rfl⟩ := Nat.exists_eq_add_one.mpr hpos
    exact .object hitems

theorem fits_list_nil : Fits d room (.list []) ↔ d.countsEmpty = true → 0 < room := by
  constructor
  · intro h hcounts
    cases h with
    | emptyList uncounted => exact absurd (hcounts.symm.trans uncounted) (by decide)
    | list items => exact Nat.succ_pos _
  · intro h
    cases hcounts : d.countsEmpty with
    | false => exact .emptyList hcounts
    | true =>
      obtain ⟨k, rfl⟩ := Nat.exists_eq_add_one.mpr (h hcounts)
      exact .list (List.forall_mem_nil _)

theorem fits_object_nil : Fits d room (.object []) ↔ d.countsEmpty = true → 0 < room := by
  constructor
  · intro h hcounts
    cases h with
    | emptyObject uncounted => exact absurd (hcounts.symm.trans uncounted) (by decide)
    | object items => exact Nat.succ_pos _
  · intro h
    cases hcounts : d.countsEmpty with
    | false => exact .emptyObject hcounts
    | true =>
      obtain ⟨k, rfl⟩ := Nat.exists_eq_add_one.mpr (h hcounts)
      exact .object (List.forall_mem_nil _)

theorem fits_list {xs : List Json} : Fits d (room + 1) (.list xs) ↔ ∀ x ∈ xs, Fits d room x := by
  cases xs with
  | nil => exact ⟨fun _ => List.forall_mem_nil _, .list⟩
  | cons x xs => rw [fits_list_cons, Nat.add_sub_cancel, and_iff_right (Nat.succ_pos room)]

theorem fits_object {fields : Fields} :
    Fits d (room + 1) (.object fields) ↔ ∀ f ∈ fields, Fits d room f.2 := by
  cases fields with
  | nil => exact ⟨fun _ => List.forall_mem_nil _, .object⟩
  | cons f fields => rw [fits_object_cons, Nat.add_sub_cancel, and_iff_right (Nat.succ_pos room)]

theorem fits_int {n : Int} : Fits d room (.int n) ↔ Text.IsReadable n.natAbs := by
  constructor
  · intro h
    cases h with
    | int readable => exact readable
  · exact .int

@[simp] theorem fits_null : Fits d room .null := .null

@[simp] theorem fits_bool (b : Bool) : Fits d room (.bool b) := .bool b

@[simp] theorem fits_text (s : LooseText) : Fits d room (.text s) := .text s

end Fits

end ChangeImpact.Json
