import ChangeImpact.Json.Basic
import ChangeImpact.Text.Integer

/-!
# Reading JSON

The grammar of the format, with `NaN`, `Infinity` and `-Infinity` as further numbers. Nothing
but blanks may follow the value. A name given twice keeps its last value. There are two dialects:
the lenient one lets surrogates stand alone and bounds the digits of integers, the strict one
takes surrogates in pairs only and bounds the digits before any point. Either bounds how deep
lists and objects may lie in one another; the bound of the lenient one is what a recursion has room
for, so that an empty list counts as well. Reading takes as much fuel as the text is long, since
every value takes at least one character.
-/

namespace ChangeImpact.Json

inductive ReadError where
  | malformed
  | digitLimit
  | tooDeep
  deriving Repr, DecidableEq

structure Dialect where
  /-- Surrogates must come in pairs. -/
  pairsOnly : Bool
  /-- The digits before a point count. -/
  countsAllDigits : Bool
  /-- An empty list or object counts as a level. -/
  countsEmpty : Bool
  depthLimit : Nat

def Dialect.lenient (nesting : Nat) : Dialect := ⟨false, false, true, nesting⟩

def Dialect.strict : Dialect := ⟨true, true, false, 200⟩

abbrev Read (α : Type) := Except ReadError (α × List CodePoint)

def isSpace (p : CodePoint) : Bool := [' ', '\t', '\n', '\r'].any fun c => p == .char c

def skipSpace (s : List CodePoint) : List CodePoint := s.dropWhile isSpace

def hexValue? (c : Char) : Option Nat :=
  let n := c.toNat
  if 48 ≤ n && n ≤ 57 then some (n - 48)
  else if 97 ≤ n && n ≤ 102 then some (n - 87)
  else if 65 ≤ n && n ≤ 70 then some (n - 55)
  else none

def hexUnit? : List CodePoint → Option (Nat × List CodePoint)
  | .char a :: .char b :: .char c :: .char d :: r => do
    let a ← hexValue? a
    let b ← hexValue? b
    let c ← hexValue? c
    let d ← hexValue? d
    pure (((a * 16 + b) * 16 + c) * 16 + d, r)
  | _ => none

def isHigh (n : Nat) : Bool := 0xD800 ≤ n && n < 0xDC00
def isLow (n : Nat) : Bool := 0xDC00 ≤ n && n < 0xE000

def joined (high low : Nat) : CodePoint :=
  .ofNat (0x10000 + (high - 0xD800) * 0x400 + (low - 0xDC00))

def single? (d : Dialect) (n : Nat) : Option CodePoint :=
  if d.pairsOnly && (isHigh n || isLow n) then none else some (.ofNat n)

/-- The code point after `\u`; a high and a low surrogate make one character. -/
def escapedUnit? (d : Dialect) (s : List CodePoint) : Option (CodePoint × List CodePoint) := do
  let (n, r) ← hexUnit? s
  match r with
  | .char '\\' :: .char 'u' :: r2 =>
    if isHigh n then
      let (m, r3) ← hexUnit? r2
      if isLow m then pure (joined n m, r3) else pure (← single? d n, r)
    else pure (← single? d n, r)
  | _ => pure (← single? d n, r)

def escapes : List (Char × Char) :=
  [('"', '"'), ('\\', '\\'), ('/', '/'), ('b', '\x08'), ('f', '\x0c'), ('n', '\n'), ('r', '\r'),
    ('t', '\t')]

def readQuoted (d : Dialect) : Nat → List CodePoint → Read (List CodePoint)
  | 0, _ => .error .malformed
  | _ + 1, [] => .error .malformed
  | _ + 1, .char '"' :: r => .ok ([], r)
  | n + 1, .char '\\' :: .char 'u' :: r =>
    match escapedUnit? d r with
    | some (p, r2) => (readQuoted d n r2).map fun (ps, r3) => (p :: ps, r3)
    | none => .error .malformed
  | n + 1, .char '\\' :: .char e :: r =>
    match escapes.lookup e with
    | some c => (readQuoted d n r).map fun (ps, r2) => (.char c :: ps, r2)
    | none => .error .malformed
  | n + 1, p :: r =>
    if p.toNat < 32 || p == .char '\\' then .error .malformed
    else (readQuoted d n r).map fun (ps, r2) => (p :: ps, r2)

def natOf (ds : List Char) : Nat := ds.foldl (fun n c => n * 10 + (c.toNat - 48)) 0

def isDigit (p : CodePoint) : Bool := p.char?.any Char.isDigit

def cutDigits (s : List CodePoint) : List Char × List CodePoint :=
  ((s.takeWhile isDigit).map CodePoint.visible, s.dropWhile isDigit)

def readFraction (s : List CodePoint) : List Char × List CodePoint :=
  match s with
  | .char '.' :: r => if (cutDigits r).1.isEmpty then ([], s) else cutDigits r
  | _ => ([], s)

def cutSign : List CodePoint → Bool × List CodePoint
  | .char '+' :: r => (false, r)
  | .char '-' :: r => (true, r)
  | s => (false, s)

def readExponent (s : List CodePoint) : Option Int × List CodePoint :=
  match s with
  | e :: r =>
    if e == .char 'e' || e == .char 'E' then
      let (negative, r) := cutSign r
      let (ds, rest) := cutDigits r
      if ds.isEmpty then (none, s) else (some (Text.signed negative (natOf ds)), rest)
    else (none, s)
  | [] => (none, s)

def isOverlong (d : Dialect) (isInteger : Bool) (whole : List Char) : Bool :=
  (d.countsAllDigits || isInteger) && Text.digitLimit < whole.length

def readNumber (d : Dialect) (negative : Bool) (s : List CodePoint) : Read Json :=
  let (whole, r) := match s with
    | .char '0' :: r => (['0'], r)
    | _ => cutDigits s
  if whole.isEmpty then .error .malformed
  else
    let (fraction, r) := readFraction r
    let (exponent, r) := readExponent r
    let isInteger := fraction.isEmpty && exponent.isNone
    if isOverlong d isInteger whole then .error .digitLimit
    else if isInteger then .ok (.int (Text.signed negative (natOf whole)), r)
    else
      .ok (.real (Binary64.ofDecimal negative (natOf (whole ++ fraction))
        (exponent.getD 0 - fraction.length)), r)

def literals : List (List CodePoint × Json) :=
  [("null", .null), ("true", .bool true), ("false", .bool false), ("NaN", .real .notANumber),
    ("Infinity", .real (.infinite false)), ("-Infinity", .real (.infinite true))].map
      fun (word, v) => ((LooseText.ofString word).points, v)

def readLiteral? (s : List CodePoint) : Option (Json × List CodePoint) :=
  literals.findSome? fun (word, v) =>
    if word.isPrefixOf s then some (v, s.drop word.length) else none

mutual

/-- A value at the start of the text, in which lists and objects may lie `room` deep. -/
def readValue (d : Dialect) : Nat → Nat → List CodePoint → Read Json
  | 0, _, _ => .error .malformed
  | n + 1, room, s =>
    match readLiteral? s with
    | some found => .ok found
    | none =>
      match s with
      | .char '"' :: r =>
        (readQuoted d (r.length + 1) r).map fun (ps, r2) => (.text ⟨ps⟩, r2)
      | .char '[' :: r =>
        if d.countsEmpty && room = 0 then .error .tooDeep
        else match skipSpace r with
          | .char ']' :: r2 => .ok (.list [], r2)
          | r2 =>
            if room = 0 then .error .tooDeep
            else (readItems d n (room - 1) r2).map fun (xs, r3) => (.list xs, r3)
      | .char '\x7b' :: r =>
        if d.countsEmpty && room = 0 then .error .tooDeep
        else match skipSpace r with
          | .char '\x7d' :: r2 => .ok (.object [], r2)
          | r2 =>
            if room = 0 then .error .tooDeep
            else (readFields d n (room - 1) [] r2).map fun (fs, r3) => (.object fs, r3)
      | .char '-' :: r => readNumber d true r
      | _ => readNumber d false s

def readItems (d : Dialect) : Nat → Nat → List CodePoint → Read (List Json)
  | 0, _, _ => .error .malformed
  | n + 1, room, s =>
    match readValue d n room s with
    | .error e => .error e
    | .ok (x, r) =>
      match skipSpace r with
      | .char ',' :: r2 =>
        (readItems d n room (skipSpace r2)).map fun (xs, r3) => (x :: xs, r3)
      | .char ']' :: r2 => .ok ([x], r2)
      | _ => .error .malformed

def readFields (d : Dialect) : Nat → Nat → Fields → List CodePoint → Read Fields
  | 0, _, _, _ => .error .malformed
  | n + 1, room, done, s =>
    match s with
    | .char '"' :: r =>
      match readQuoted d (r.length + 1) r with
      | .error e => .error e
      | .ok (name, r2) =>
        match skipSpace r2 with
        | .char ':' :: r3 =>
          match readValue d n room (skipSpace r3) with
          | .error e => .error e
          | .ok (v, r4) =>
            let done := put ⟨name⟩ v done
            match skipSpace r4 with
            | .char ',' :: r5 => readFields d n room done (skipSpace r5)
            | .char '\x7d' :: r5 => .ok (done, r5)
            | _ => .error .malformed
        | _ => .error .malformed
    | _ => .error .malformed

end

def readLoose (d : Dialect) (s : LooseText) : Except ReadError Json :=
  match readValue d (s.points.length + 1) d.depthLimit (skipSpace s.points) with
  | .error e => .error e
  | .ok (v, r) => if (skipSpace r).isEmpty then .ok v else .error .malformed

def read (nesting : Nat) (s : String) : Except ReadError Json := readLoose (.lenient nesting) s

end ChangeImpact.Json
