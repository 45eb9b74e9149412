/-!
# Loose texts

Some formats let a text hold surrogates that belong to no pair. A loose text is a list of code
points, each a character or a surrogate that stands alone. Where it holds no surrogate it is an
ordinary text, and every ordinary text is a loose one.
-/

namespace ChangeImpact

inductive CodePoint where
  | char (c : Char)
  | surrogate (n : Fin 0x800)
  deriving Repr, DecidableEq

namespace CodePoint

def toNat : CodePoint → Nat
  | char c => c.toNat
  | surrogate n => 0xD800 + n.val

def ofNat (n : Nat) : CodePoint :=
  if h : 0xD800 ≤ n ∧ n < 0xE000 then .surrogate ⟨n - 0xD800, by omega⟩ else .char (Char.ofNat n)

def char? : CodePoint → Option Char
  | char c => some c
  | surrogate _ => none

def isSurrogate (p : CodePoint) : Bool := p.char?.isNone

/-- The surrogates U+DC80 to U+DCFF stand for bytes that belong to no character. -/
def isByte (p : CodePoint) : Bool := 0xDC80 ≤ p.toNat && p.toNat ≤ 0xDCFF

def visible (p : CodePoint) : Char := p.char?.getD '\uFFFD'

end CodePoint

structure LooseText where
  points : List CodePoint
  deriving Repr, DecidableEq

namespace LooseText

def ofChars (s : List Char) : LooseText := ⟨s.map .char⟩

def ofString (s : String) : LooseText := ofChars s.toList

instance : Coe String LooseText := ⟨ofString⟩

instance : Append LooseText := ⟨fun s t => ⟨s.points ++ t.points⟩⟩

def toString? (s : LooseText) : Option String := (s.points.mapM CodePoint.char?).map String.ofList

def visible (s : LooseText) : String := String.ofList (s.points.map CodePoint.visible)

def isEmpty (s : LooseText) : Bool := s.points.isEmpty

def intercalate (separator : LooseText) (items : List LooseText) : LooseText :=
  ⟨separator.points.intercalate (items.map points)⟩

theorem mapM_char?_map_char (s : List Char) :
    (s.map CodePoint.char).mapM CodePoint.char? = some s := by
  induction s with
  | nil => rfl
  | cons c r ih => simp [CodePoint.char?, ih]

@[simp] theorem toString?_ofString (s : String) : (ofString s).toString? = some s := by
  simp only [toString?, ofString, ofChars, mapM_char?_map_char, Option.map_some,
    String.ofList_toList]

@[simp] theorem visible_ofString (s : String) : (ofString s).visible = s := by
  simp [visible, ofString, ofChars, Function.comp_def, CodePoint.visible, CodePoint.char?]

end LooseText

end ChangeImpact
