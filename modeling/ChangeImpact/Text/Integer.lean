import ChangeImpact.Decimal.Digits
import ChangeImpact.Text.Quoted
import ChangeImpact.Text.Split

/-!
# Reading integers

An optional sign and decimal digits of any script, blanks around them, single underscores
between them. A number of more than 4300 digits is refused, whatever follows the digits.
-/

namespace ChangeImpact.Text

inductive IntegerError where
  | malformed (text : LooseText)
  | tooLong (digits : Nat)
  deriving Repr, DecidableEq

def digitLimit : Nat := 4300

def quotedLimit : Nat := 200

def IntegerError.message : IntegerError → String
  | .malformed text =>
    "invalid literal for int() with base 10: " ++
      String.ofList ((Quoted.quote text).toList.take quotedLimit)
  | .tooLong digits =>
    "Exceeds the limit (" ++ Decimal.ofNat digitLimit ++
      " digits) for integer string conversion: value has " ++ Decimal.ofNat digits ++
      " digits; use sys.set_int_max_str_digits() to increase the limit"

/-- The digits at the start of a text, with what follows them. Single underscores may stand
between digits; `afterDigit` tells whether one may come next. -/
def leadingDigits? (afterDigit : Bool) : List Char → Option (List Nat × List Char)
  | [] => if afterDigit then some ([], []) else none
  | c :: r =>
    if c == '_' then if afterDigit then leadingDigits? false r else none
    else match digitValue? c with
      | some d => (leadingDigits? true r).map fun (ds, rest) => (d :: ds, rest)
      | none => if afterDigit then some ([], c :: r) else none

def ofDigits (ds : List Nat) : Nat := ds.foldl (fun n d => n * 10 + d) 0

def splitSign : List Char → Bool × List Char
  | '+' :: r => (false, r)
  | '-' :: r => (true, r)
  | s => (false, s)

def signed (negative : Bool) (n : Nat) : Int := if negative then -(n : Int) else n

def isOuterBlank (c : Char) : Bool := isBlank c && !(28 ≤ c.toNat && c.toNat ≤ 31)

def readInteger (s : LooseText) : Except IntegerError Int :=
  let (negative, digits) := splitSign (trim isOuterBlank s.visible.toList)
  match leadingDigits? false digits with
  | none => .error (.malformed s)
  | some (ds, rest) =>
    if digitLimit < ds.length then .error (.tooLong ds.length)
    else if rest.isEmpty then .ok (signed negative (ofDigits ds))
    else .error (.malformed s)

end ChangeImpact.Text
