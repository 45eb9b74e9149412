import ChangeImpact.Text.Integer

/-!
# Literals

The parameters of some tags are literals: numbers, texts and bytes between quotes, constants,
tuples, sets and tables of literals. Here it is only told whether a text is one. A sign stands
before a number alone, a sum joins a real and an imaginary number alone, and what can change is
no element of a set and no key.
-/

namespace ChangeImpact.Console.Literal

inductive Kind where
  | real
  | signedReal
  | imaginary
  | fixed
  | changing
  deriving Repr, DecidableEq

abbrev Found := Option (Kind × List Char)

def depthLimit : Nat := 200

/-! ## Gaps -/

def skipGap (inBrackets inComment : Bool) : List Char → List Char
  | [] => []
  | c :: r =>
    let endsLine := c == '\n' || c == '\r'
    if endsLine then if inBrackets then skipGap inBrackets false r else c :: r
    else if inComment || c == ' ' || c == '\t' || c == '\x0c' then skipGap inBrackets inComment r
    else if c == '#' then skipGap inBrackets true r
    else c :: r

/-! ## Numbers -/

def digits? (isDigit : Char → Bool) (afterDigit : Bool) :
    List Char → Option (List Char × List Char)
  | [] => if afterDigit then some ([], []) else none
  | c :: r =>
    if c == '_' then if afterDigit then digits? isDigit false r else none
    else if isDigit c then (digits? isDigit true r).map fun (ds, rest) => (c :: ds, rest)
    else if afterDigit then some ([], c :: r) else none

def isBinary (c : Char) : Bool := c == '0' || c == '1'

def isOctal (c : Char) : Bool := '0' ≤ c && c ≤ '7'

def isHex (c : Char) : Bool := c.isDigit || ('a' ≤ c && c ≤ 'f') || ('A' ≤ c && c ≤ 'F')

def based? : List Char → Option (List Char)
  | '0' :: mark :: r =>
    let digits := if r.head? == some '_' then r.drop 1 else r
    let isDigit? := match mark.toLower with
      | 'b' => some isBinary
      | 'o' => some isOctal
      | 'x' => some isHex
      | _ => none
    isDigit?.bind fun isDigit => (digits? isDigit false digits).map (·.2)
  | _ => none

def perhapsDigits (s : List Char) : Option (List Char × List Char) :=
  if s.head?.any Char.isDigit then digits? Char.isDigit false s else some ([], s)

def exponent? (s : List Char) : Option (Bool × List Char) :=
  match s with
  | c :: r =>
    if c == 'e' || c == 'E' then
      let signless := if r.head? == some '+' || r.head? == some '-' then r.drop 1 else r
      (digits? Char.isDigit false signless).map fun (_, rest) => (true, rest)
    else some (false, s)
  | [] => some (false, s)

/-- Zeros may not stand before another digit of an integer, nor may it be too long. -/
def isInteger (digits : List Char) : Bool :=
  (digits.head? != some '0' || digits.all (· == '0')) && digits.length ≤ Text.digitLimit

def decimal? (s : List Char) : Found := do
  let (whole, r) ← perhapsDigits s
  let hasPoint := r.head? == some '.'
  let (fraction, r) ← if hasPoint then perhapsDigits (r.drop 1) else some ([], r)
  let (hasExponent, r) ← exponent? r
  if whole.isEmpty && fraction.isEmpty then none
  else if r.head? == some 'j' || r.head? == some 'J' then some (.imaginary, r.drop 1)
  else if hasPoint || hasExponent || isInteger whole then some (.real, r)
  else none

def number? (s : List Char) : Found := do
  let (kind, r) ← match based? s with
    | some r => some (.real, r)
    | none => decimal? s
  if r.head?.any Text.isWord then none else some (kind, r)

/-! ## Texts -/

structure Quotes where
  mark : Char
  triple : Bool
  raw : Bool
  bytes : Bool

def hexCount (q : Quotes) (c : Char) : Nat :=
  if c == 'x' then 2 else if q.bytes then 0 else if c == 'u' then 4 else if c == 'U' then 8 else 0

def escapes (q : Quotes) (c : Char) (r : List Char) : Bool :=
  let n := hexCount q c
  let ds := r.take n
  q.raw || (!(c == 'N' && !q.bytes) && ds.length == n && ds.all isHex &&
    (n < 8 || ["000".toList, "0010".toList].any (·.isPrefixOf ds)))

def closes (q : Quotes) (s : List Char) : Bool :=
  (if q.triple then [q.mark, q.mark, q.mark] else [q.mark]).isPrefixOf s

def afterQuotes? (q : Quotes) : List Char → Option (List Char)
  | [] => none
  | '\\' :: c :: r =>
    if escapes q c r && (!q.bytes || c.toNat < 128) then afterQuotes? q r else none
  | c :: r =>
    if closes q (c :: r) then some (r.drop (if q.triple then 2 else 0))
    else if !q.triple && (c == '\n' || c == '\r') || q.bytes && 128 ≤ c.toNat then none
    else afterQuotes? q r

def quotes? (s : List Char) : Option (Quotes × List Char) :=
  let letters := (s.takeWhile Char.isAlpha).map Char.toLower
  match s.drop letters.length with
  | mark :: r =>
    if (mark == '\'' || mark == '"') &&
        ["", "r", "u", "b", "br", "rb"].any (·.toList == letters) then
      let triple := r.take 2 == [mark, mark]
      some (⟨mark, triple, letters.contains 'r', letters.contains 'b'⟩,
        if triple then r.drop 2 else r)
    else none
  | [] => none

def texts? (inBrackets : Bool) : Nat → List Char → Option (List Char)
  | 0, _ => none
  | n + 1, s => do
    let (q, r) ← quotes? s
    let r := skipGap inBrackets false (← afterQuotes? q r)
    match quotes? r with
    | some (p, _) => if p.bytes == q.bytes then texts? inBrackets n r else none
    | none => some r

/-! ## Values -/

def constants : List String := ["True", "False", "None"]

def named? (s : List Char) : Found :=
  let name := s.takeWhile Text.isWord
  let r := s.drop name.length
  if name.isEmpty then (Text.after? "...".toList s).map fun r => (.fixed, r)
  else if constants.any (·.toList == name) then some (.fixed, r)
  else if name == "set".toList then do
    let r ← Text.after? ['('] (skipGap false false r)
    let r ← Text.after? [')'] (skipGap true false r)
    some (.changing, r)
  else none

def changingIf (c : Bool) : Kind := if c then .changing else .fixed

mutual

def value? (depth : Nat) : Nat → List Char → Found
  | 0, _ => none
  | n + 1, s => do
    let isSign (c : Char) : Bool := c == '+' || c == '-'
    let gap := skipGap (depth != 0) false
    let isSigned := s.head?.any isSign
    let (kind, r) ← atom? depth n (if isSigned then gap (s.drop 1) else s)
    let r := gap r
    let kind ← if !isSigned then some kind
      else match kind with
        | .real => some .signedReal
        | .imaginary => some .fixed
        | _ => none
    if r.head?.any isSign then
      let (right, r) ← atom? depth n (gap (r.drop 1))
      if (kind = .real || kind = .signedReal) && right = .imaginary then some (.fixed, gap r)
      else none
    else some (kind, r)

def atom? (depth : Nat) : Nat → List Char → Found
  | 0, _ => none
  | _, [] => none
  | n + 1, c :: r =>
    if depthLimit < depth + 1 && (c == '(' || c == '\x7b') then none
    else if c == '(' then tuple? (depth + 1) n (skipGap true false r) true false
    else if c == '\x7b' then elements? (depth + 1) n (skipGap true false r) none
    else if c.isDigit || (c == '.' && r.head?.any Char.isDigit) then number? (c :: r)
    else match quotes? (c :: r) with
      | some _ => (texts? (depth != 0) n (c :: r)).map fun r => (.fixed, r)
      | none => named? (c :: r)

/-- The values between round brackets. A bracket may close where a value may begin, and one
value without a comma is that value. -/
def tuple? (depth : Nat) : Nat → List Char → Bool → Bool → Found
  | 0, _, _, _ => none
  | n + 1, s, isFirst, changes => do
    if s.head? == some ')' then some (changingIf changes, s.drop 1)
    else
      let (kind, r) ← value? depth n s
      let changes := changes || kind = .changing
      match r with
      | ')' :: r => some (if isFirst then kind else changingIf changes, r)
      | ',' :: r => tuple? depth n (skipGap true false r) false changes
      | _ => none

def elements? (depth : Nat) : Nat → List Char → Option Bool → Found
  | 0, _, _ => none
  | n + 1, s, areEntries => do
    if s.head? == some '\x7d' then some (.changing, s.drop 1)
    else
      let (kind, r) ← value? depth n s
      let isEntry := r.head? == some ':'
      if kind = .changing || areEntries.any (· != isEntry) then none
      else
        let r ← if isEntry then (value? depth n (skipGap true false (r.drop 1))).map (·.2) else some r
        match r with
        | '\x7d' :: r => some (.changing, r)
        | ',' :: r => elements? depth n (skipGap true false r) (some isEntry)
        | _ => none

end

def isEnd (s : List Char) : Bool := (skipGap true false s).isEmpty

def isSequence : Nat → List Char → Bool
  | 0, _ => false
  | n + 1, s =>
    match value? 0 (4 * (s.length + 1)) s with
    | some (_, ',' :: r) => isEnd r || isSequence n (skipGap false false r)
    | some (_, r) => isEnd r
    | none => false

def isLiteral (s : List Char) : Bool :=
  !s.contains '\x00' && isSequence s.length (skipGap true false s)

end ChangeImpact.Console.Literal
