import ChangeImpact.Decimal.Binary64
import ChangeImpact.Decimal.Digits
import ChangeImpact.Text.Integer

/-!
# Laying out a value

How a text or an integer is laid out in a field: fill and alignment, sign, width, separators
between groups of digits, precision, and the form of a number. A layout is read from its short
written form, each part optional and in this order.
-/

namespace ChangeImpact.Template

inductive Value where
  | text (s : String)
  | number (n : Int)
  deriving Repr, DecidableEq

inductive Align where
  | left
  | right
  | center
  | afterSign
  deriving Repr, DecidableEq

inductive LayoutError where
  | tooManyDigits
  | bothSeparators
  | noPrecision
  | trailing (spec : String) (kind : String)
  | separatorFor (separator : Char) (form : Char)
  | unknownForm (form : Char) (kind : String)
  | signOnText
  | spaceOnText
  | zeroOnText
  | alternateOnText
  | afterSignOnText
  | precisionOnInteger
  | zeroOnInteger
  | signOnCharacter
  | alternateOnCharacter
  | characterRange
  | floatRange
  | precisionTooBig
  | overlong
  | beyondMemory
  deriving Repr, DecidableEq

namespace LayoutError

def formText (form : Char) : String :=
  if 32 < form.toNat && form.toNat < 128 then form.toString
  else "\\x" ++ String.ofList (Nat.toDigits 16 form.toNat)

def message : LayoutError → String
  | tooManyDigits => "Too many decimal digits in format string"
  | bothSeparators => "Cannot specify both ',' and '_'."
  | noPrecision => "Format specifier missing precision"
  | trailing spec kind =>
    "Invalid format specifier '" ++ spec ++ "' for object of type '" ++ kind ++ "'"
  | separatorFor sep form =>
    "Cannot specify '" ++ sep.toString ++ "' with '" ++ formText form ++ "'."
  | unknownForm form kind =>
    "Unknown format code '" ++ formText form ++ "' for object of type '" ++ kind ++ "'"
  | signOnText => "Sign not allowed in string format specifier"
  | spaceOnText => "Space not allowed in string format specifier"
  | zeroOnText => "Negative zero coercion (z) not allowed in string format specifier"
  | alternateOnText => "Alternate form (#) not allowed in string format specifier"
  | afterSignOnText => "'=' alignment not allowed in string format specifier"
  | precisionOnInteger => "Precision not allowed in integer format specifier"
  | zeroOnInteger => "Negative zero coercion (z) not allowed in integer format specifier"
  | signOnCharacter => "Sign not allowed with integer format specifier 'c'"
  | alternateOnCharacter => "Alternate form (#) not allowed with integer format specifier 'c'"
  | characterRange => "%c arg not in range(0x110000)"
  | floatRange => "int too large to convert to float"
  | precisionTooBig => "precision too big"
  | overlong =>
    "Exceeds the limit (" ++ Decimal.ofNat Text.digitLimit ++ " digits) for integer string " ++
      "conversion; use sys.set_int_max_str_digits() to increase the limit"
  | beyondMemory => ""

def isOverflow : LayoutError → Bool
  | characterRange => true
  | floatRange => true
  | _ => false

end LayoutError

structure Layout where
  fill : Char
  align : Align
  sign : Option Char
  noNegativeZero : Bool
  alternate : Bool
  width : Option Nat
  separator : Option Char
  precision : Option Nat
  form : Char
  deriving Repr, DecidableEq

namespace Layout

def alignOf? : Char → Option Align
  | '<' => some .left
  | '>' => some .right
  | '^' => some .center
  | '=' => some .afterSign
  | _ => none

def numberLimit : Nat := 9223372036854775807

def precisionLimit : Nat := 2147483647

def leadingNumber (s : List Char) : Except LayoutError (Option Nat × List Char) :=
  let ds := s.takeWhile Text.isDigit
  let n := ds.foldl (fun n c => n * 10 + (Text.digitValue? c).getD 0) 0
  if ds.isEmpty then .ok (none, s)
  else if numberLimit < n then .error .tooManyDigits
  else .ok (some n, s.dropWhile Text.isDigit)

def readAlign (s : List Char) : Option Char × Option Align × List Char :=
  match s with
  | f :: a :: r =>
    match alignOf? a with
    | some al => (some f, some al, r)
    | none => match alignOf? f with
      | some al => (none, some al, a :: r)
      | none => (none, none, s)
  | [a] => match alignOf? a with
    | some al => (none, some al, [])
    | none => (none, none, s)
  | [] => (none, none, [])

def readSign : List Char → Option Char × List Char
  | c :: r => if c == '+' || c == '-' || c == ' ' then (some c, r) else (none, c :: r)
  | [] => (none, [])

def readFlag (flag : Char) : List Char → Bool × List Char
  | c :: r => if c == flag then (true, r) else (false, c :: r)
  | [] => (false, [])

def readSeparator : List Char → Except LayoutError (Option Char × List Char)
  | ',' :: '_' :: _ => .error .bothSeparators
  | '_' :: ',' :: _ => .error .bothSeparators
  | ',' :: r => .ok (some ',', r)
  | '_' :: r => .ok (some '_', r)
  | s => .ok (none, s)

def readPrecision : List Char → Except LayoutError (Option Nat × List Char)
  | '.' :: r => do
    match ← leadingNumber r with
    | (some n, r) => pure (some n, r)
    | (none, _) => .error .noPrecision
  | s => .ok (none, s)

def separatorFits (separator : Option Char) (form : Char) : Bool :=
  match separator with
  | none => true
  | some sep =>
    ['d', 'e', 'f', 'g', 'E', 'G', '%', 'F'].contains form ||
      (sep == '_' && ['b', 'o', 'x', 'X'].contains form)

def read (kind : String) (ownAlign : Align) (ownForm : Char) (s : List Char) :
    Except LayoutError Layout := do
  let (fill, align, r) := readAlign s
  let (sign, r) := readSign r
  let (noNegativeZero, r) := readFlag 'z' r
  let (alternate, r) := readFlag '#' r
  let (zero, r) := if fill.isNone then readFlag '0' r else (false, r)
  let (width, r) ← leadingNumber r
  let (separator, r) ← readSeparator r
  let (precision, r) ← readPrecision r
  let form ← match r with
    | [] => pure ownForm
    | [c] => pure c
    | _ => .error (.trailing (String.ofList s) kind)
  let zeroAlign := if zero && ownAlign == .right then .afterSign else ownAlign
  if !separatorFits separator form then
    .error (.separatorFor (separator.getD ',') form)
  else
    pure { fill := if zero then '0' else fill.getD ' ', align := align.getD zeroAlign, sign,
           noNegativeZero, alternate, width, separator, precision, form }

def roomLimit : Nat := 1073741824

def checkRoom (l : Layout) (length : Nat) : Except LayoutError Unit :=
  if roomLimit < max length (l.width.getD 0) then .error .beyondMemory else .ok ()

def pad (l : Layout) (lead body : List Char) : List Char :=
  let missing := l.width.getD 0 - (lead.length + body.length)
  let fill (n : Nat) : List Char := List.replicate n l.fill
  match l.align with
  | .left => lead ++ body ++ fill missing
  | .right => fill missing ++ lead ++ body
  | .center => fill (missing / 2) ++ lead ++ body ++ fill (missing - missing / 2)
  | .afterSign => lead ++ fill missing ++ body

def layText (l : Layout) (s : String) : Except LayoutError String :=
  if l.form != 's' then .error (.unknownForm l.form "str")
  else if l.sign == some ' ' then .error .spaceOnText
  else if l.sign.isSome then .error .signOnText
  else if l.noNegativeZero then .error .zeroOnText
  else if l.alternate then .error .alternateOnText
  else if l.align == .afterSign then .error .afterSignOnText
  else do
    l.checkRoom 0
    let cs := match l.precision with
      | some p => s.toList.take p
      | none => s.toList
    pure (String.ofList (l.pad [] cs))

/-- Puts `separator` between groups of `size`, counted from the right. `reversed` holds the
digits from the right, and zeros are added as long as `room` characters are not filled. -/
def grouped (separator : Char) (size : Nat) (inGroup : Nat) (reversed : List Char) (room : Nat) :
    List Char :=
  match reversed with
  | d :: r =>
    if inGroup == size then
      separator :: d :: grouped separator size 1 r (room - 2)
    else d :: grouped separator size (inGroup + 1) r (room - 1)
  | [] => zeros room inGroup
where
  zeros : Nat → Nat → List Char
    | 0, _ => []
    | n + 1, k =>
      if k == size then
        separator :: '0' :: zeros (n - 1) 1
      else '0' :: zeros n (k + 1)

/-- The digits before the point with their separators; zeros that fill are digits, too, where
there are others. -/
def groupDigits (l : Layout) (taken : Nat) (ds : List Char) : List Char :=
  if ds.isEmpty then [] else
  let room := if l.fill == '0' && l.align == .afterSign then l.width.getD 0 - taken else 0
  match l.separator with
  | none => List.replicate (room - ds.length) '0' ++ ds
  | some sep =>
    let size := if ['b', 'o', 'x', 'X'].contains l.form then 4 else 3
    (grouped sep size 0 ds.reverse room).reverse

def signText (l : Layout) (negative : Bool) : List Char :=
  if negative then ['-']
  else match l.sign with
    | some '+' => ['+']
    | some ' ' => [' ']
    | _ => []

def layNumber (l : Layout) (negative : Bool) (mark whole rest : List Char) :
    Except LayoutError String := do
  l.checkRoom 0
  let lead := l.signText negative ++ mark
  let body := l.groupDigits (lead.length + rest.length) whole ++ rest
  pure (String.ofList (l.pad lead body))

def isOverlong (n : Int) : Bool := Text.digitLimit < (Decimal.digits n.natAbs).length

def inBase (base n : Nat) : List Char := Nat.toDigits base n

def upper (s : List Char) : List Char := s.map Char.toUpper

/-- The magnitude of an integer as the nearest number of double precision, which is an integer
again. -/
def asDouble (n : Int) : Except LayoutError Nat :=
  match (Binary64.nearest false n.natAbs 1).toInt? with
  | some m => .ok m.natAbs
  | none => .error .floatRange

def zeroPlaces (alternate : Bool) (places : Nat) : List Char :=
  if places == 0 then (if alternate then ['.'] else []) else '.' :: List.replicate places '0'

/-- The first `places + 1` digits of a number, rounded, and the place of the first one. -/
def leadingDigits (n places : Nat) : List Char × Nat :=
  let ds := Decimal.digits n
  if ds.length ≤ places + 1 then
    (ds ++ List.replicate (places + 1 - ds.length) '0', ds.length - 1)
  else
    let rounded := Decimal.digits (Binary64.divToEven n (Nat.pow 10 (ds.length - (places + 1))))
    (rounded.take (places + 1), ds.length - 1 + (rounded.length - (places + 1)))

def exponentText (mark : Char) (e : Nat) : List Char :=
  let ds := Decimal.digits e
  mark :: '+' :: (if ds.length < 2 then '0' :: ds else ds)

def fraction (alternate : Bool) (ds : List Char) : List Char :=
  if ds.isEmpty then (if alternate then ['.'] else []) else '.' :: ds

def dropZeros (ds : List Char) : List Char := (ds.reverse.dropWhile (· == '0')).reverse

def keepsZeros (l : Layout) : Bool := l.alternate || !(l.form == 'g' || l.form == 'G')

/-- What stands before and after the end of the whole digits in a form with a point. Where the
zeros at the end are dropped, no more places are made than the number has digits. -/
def pointForm (l : Layout) (n : Nat) : List Char × List Char :=
  let places := l.precision.getD 6
  if l.form == 'f' || l.form == 'F' then
    (Decimal.digits n, zeroPlaces l.alternate places)
  else if l.form == '%' then
    match (Binary64.nearest false (n * 100) 1).toInt? with
    | some hundredfold =>
      (Decimal.digits hundredfold.natAbs, zeroPlaces l.alternate places ++ ['%'])
    | none => ([], "inf%".toList)
  else if l.form == 'e' || l.form == 'E' then
    let (ds, e) := leadingDigits n places
    (ds.take 1, fraction l.alternate (ds.drop 1) ++ exponentText l.form e)
  else
    let places := if l.keepsZeros then places else min places (Decimal.digits n).length
    let places := max places 1 - 1
    let (ds, e) := leadingDigits n places
    let keep (ds : List Char) : List Char := if l.keepsZeros then ds else dropZeros ds
    if e ≤ places then (ds.take (e + 1), fraction l.alternate (keep (ds.drop (e + 1))))
    else
      (ds.take 1, fraction l.alternate (keep (ds.drop 1)) ++
        exponentText (if l.form == 'g' then 'e' else 'E') e)

def layCharacter (l : Layout) (n : Int) : Except LayoutError String :=
  if l.sign.isSome then .error .signOnCharacter
  else if l.alternate then .error .alternateOnCharacter
  else if n < 0 || 0x10FFFF < n then .error .characterRange
  else do
    l.checkRoom 0
    pure (String.ofList (l.pad [] [Char.ofNat n.toNat]))

def layInteger (l : Layout) (n : Int) : Except LayoutError String :=
  let negative := decide (n < 0)
  let mark (m : Char) : List Char := if l.alternate then ['0', m] else []
  if ['d', 'n', 'b', 'o', 'x', 'X', 'c'].contains l.form then
    if l.precision.isSome then .error .precisionOnInteger
    else if l.noNegativeZero then .error .zeroOnInteger
    else if l.form == 'c' then l.layCharacter n
    else if l.form == 'b' then l.layNumber negative (mark 'b') (inBase 2 n.natAbs) []
    else if l.form == 'o' then l.layNumber negative (mark 'o') (inBase 8 n.natAbs) []
    else if l.form == 'x' then l.layNumber negative (mark 'x') (inBase 16 n.natAbs) []
    else if l.form == 'X' then l.layNumber negative (mark 'X') (upper (inBase 16 n.natAbs)) []
    else if isOverlong n then .error .overlong
    else l.layNumber negative [] (Decimal.digits n.natAbs) []
  else if ['e', 'E', 'f', 'F', 'g', 'G', '%'].contains l.form then do
    let magnitude ← asDouble n
    if precisionLimit < l.precision.getD 0 then .error .precisionTooBig
    else
      l.checkRoom (if l.keepsZeros then l.precision.getD 0 else 0)
      let (whole, rest) := l.pointForm magnitude
      l.layNumber negative [] whole rest
  else .error (.unknownForm l.form "int")

end Layout

namespace Value

def written : Value → Except LayoutError String
  | text s => .ok s
  | number n => if Layout.isOverlong n then .error .overlong else .ok (Decimal.ofInt n)

def lay (v : Value) (spec : List Char) : Except LayoutError String :=
  if spec.isEmpty then v.written
  else match v with
    | text s => do (← Layout.read "str" .left 's' spec).layText s
    | number n => do (← Layout.read "int" .right 'd' spec).layInteger n

end Value

end ChangeImpact.Template
