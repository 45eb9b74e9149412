import ChangeImpact.Text.CaseTables

/-!
# Lower case

The full lower-case form of a text: the table of single letters, the dotted capital I, which
becomes two characters, and the capital sigma, whose form depends on whether it ends a word.
-/

namespace ChangeImpact.Text

def CaseShift.covers (s : CaseShift) (c : Char) : Bool :=
  s.lo ≤ c.toNat && c.toNat ≤ s.hi && (c.toNat - s.lo) % s.step == 0

def lowerChar (c : Char) : Char :=
  if c.toNat < 128 then c.toLower
  else match caseShifts.find? (·.covers c) with
    | some s => Char.ofNat (Int.ofNat c.toNat + s.shift).toNat
    | none => c

def isCased (c : Char) : Bool :=
  if c.toNat < 128 then c.isAlpha else casedRanges.has c

def isCaseIgnorable (c : Char) : Bool :=
  if c.toNat < 128 then ['\'', '.', ':', '^', '\x60'].contains c else caseIgnorableRanges.has c

def meetsCased (s : List Char) : Bool :=
  match s.dropWhile isCaseIgnorable with
  | c :: _ => isCased c
  | [] => false

/-- `before` holds what precedes, nearest character first. -/
def lowerAfter (before : List Char) : List Char → List Char
  | [] => []
  | c :: r =>
    let here :=
      if c.toNat == 0x3A3 then
        if meetsCased before && !meetsCased r then ['ς'] else ['σ']
      else if c.toNat == 0x130 then ['i', '\u0307']
      else [lowerChar c]
    here ++ lowerAfter (c :: before) r

def lower (s : String) : String :=
  if s.toList.all (·.toNat < 128) then s.toLower else String.ofList (lowerAfter [] s.toList)

end ChangeImpact.Text
