import ChangeImpact.Text.Integer

/-!
# Integers spelled in texts

An integer in digits may be given as a text: with blanks around it, a plus sign, zeros before its
first digit, underscores between digits, and a point followed by zeros. The zeros at the start,
with any underscores among them, are passed over up to another digit or a minus sign. Whatever
is left must be written plainly, and have no more than 4300 characters.
-/

namespace ChangeImpact.Json.Spelling

inductive SpellingError where
  | malformed
  | tooLong
  deriving Repr, DecidableEq

def lengthLimit : Nat := 4300

/-- Digits with no zero before them, or a zero alone, behind a minus sign or none. What follows
the digits is looked at after their number. -/
def plain (s : List Char) : Except SpellingError Int :=
  let negative := s.head? == some '-'
  let body := if negative then s.drop 1 else s
  let digits := body.takeWhile Char.isDigit
  let isWhole := digits.length == body.length
  let value := Text.ofDigits (digits.map fun c => c.toNat - 48)
  if digits.isEmpty then .error .malformed
  else if digits.head? == some '0' then
    if isWhole && digits.length == 1 then .ok 0 else .error .malformed
  else if lengthLimit < digits.length + (if negative then 1 else 0) then .error .tooLong
  else if isWhole then .ok (Text.signed negative value)
  else .error .malformed

/-- The text without the zeros at its start, the last of which stays before a point; `last` is
the character before. -/
def dropZeros? (last : Char) : List Char → Option (List Char)
  | [] => some [last]
  | c :: r =>
    if c == '0' || c == '_' then dropZeros? c r
    else if c.isDigit || c == '-' then some (c :: r)
    else if c == '.' then some (last :: c :: r)
    else none

def dropPlus? : List Char → Option (List Char)
  | '+' :: '-' :: _ => none
  | '+' :: r => some r
  | s => some s

def withoutZeros? : List Char → Option (List Char)
  | '0' :: r => dropZeros? '0' r
  | c :: r => if c.isDigit || c == '-' then some (c :: r) else none
  | [] => none

def withoutFraction (s : List Char) : List Char :=
  match Text.cut? '.' s with
  | some (whole, fraction) =>
    if !fraction.isEmpty && fraction.all (· == '0') then whole else s
  | none => s

def areSingle : List Char → Bool
  | '_' :: '_' :: _ => false
  | _ :: r => areSingle r
  | [] => true

def withoutUnderscores (s : List Char) : List Char :=
  if s.head? == some '_' || s.getLast? == some '_' || !areSingle s then s
  else s.filter (· != '_')

def cleaned? (s : List Char) : Option (List Char) := do
  let s ← withoutZeros? (← dropPlus? (Text.trim Text.isOuterBlank s))
  pure (withoutUnderscores (withoutFraction s))

def integer (s : List Char) : Except SpellingError Int :=
  match plain s with
  | .error .malformed =>
    match cleaned? s with
    | some t => plain t
    | none => .error .malformed
  | found => found

end ChangeImpact.Json.Spelling
