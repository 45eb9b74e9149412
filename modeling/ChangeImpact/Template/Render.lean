import ChangeImpact.Template.Member

/-!
# Templates

A template is text with fields in braces; a brace of the text itself is written twice. A field
names a value, may step into it, may ask for a quoted form, and may lay it out; the layout may
hold fields of its own. Reading goes on to the first fault, and what stands before a fault is
still filled in, so that the fault that comes first in the template is the one reported.
-/

namespace ChangeImpact.Template

inductive SyntaxError where
  | singleOpen
  | singleClose
  | openInName
  | unclosed
  | noConversion
  | afterConversion
  | unmatched
  | unknownConversion (c : Char)
  | emptyStep
  | unclosedBracket
  | afterBracket
  | tooDeep
  | tooManyDigits
  deriving Repr, DecidableEq

def SyntaxError.message : SyntaxError → String
  | singleOpen => "Single '\x7b' encountered in format string"
  | singleClose => "Single '\x7d' encountered in format string"
  | openInName => "unexpected '\x7b' in field name"
  | unclosed => "expected '\x7d' before end of string"
  | noConversion => "end of string while looking for conversion specifier"
  | afterConversion => "expected ':' after conversion specifier"
  | unmatched => "unmatched '\x7b' in format spec"
  | unknownConversion c =>
    "Unknown conversion specifier " ++
      (if 32 < c.toNat && c.toNat < 127 then c.toString
        else "\\x" ++ String.ofList (Nat.toDigits 16 c.toNat))
  | emptyStep => "Empty attribute in format string"
  | unclosedBracket => "Missing ']' in format string"
  | afterBracket => "Only '.' or '[' may follow ']' in format field specifier"
  | tooDeep => "Max string recursion exceeded"
  | tooManyDigits => "Too many decimal digits in format string"

inductive Piece where
  | literal (text : List Char)
  | field (name : List Char) (conversion : Option Char) (layout : List Char)
  deriving Repr, DecidableEq

def openBrace : Char := '\x7b'
def closeBrace : Char := '\x7d'
def isBrace (c : Char) : Bool := c == openBrace || c == closeBrace

def readName (inBracket : Bool) : List Char → Except SyntaxError (List Char × Char × List Char)
  | [] => .error .unclosed
  | c :: r =>
    let goOn (inBracket : Bool) := (readName inBracket r).map fun (n, e, rest) => (c :: n, e, rest)
    if inBracket then goOn (c != ']')
    else if c == openBrace then .error .openInName
    else if c == closeBrace || c == ':' || c == '!' then .ok ([], c, r)
    else goOn (c == '[')

def readLayout (depth : Nat) : List Char → Except SyntaxError (List Char × List Char)
  | [] => .error .unmatched
  | c :: r =>
    if c == closeBrace && depth == 0 then .ok ([], r)
    else
      let depth :=
        if c == openBrace then depth + 1 else if c == closeBrace then depth - 1 else depth
      (readLayout depth r).map fun (s, rest) => (c :: s, rest)

def readField (s : List Char) : Except SyntaxError (Piece × List Char) := do
  let (name, ending, r) ← readName false s
  if ending == closeBrace then pure (.field name none [], r)
  else if ending == ':' then
    let (layout, r) ← readLayout 0 r
    pure (.field name none layout, r)
  else match r with
    | [] => .error .noConversion
    | conversion :: r =>
      match r with
      | [] => .error .unmatched
      | c :: r =>
        if c == closeBrace then pure (.field name (some conversion) [], r)
        else if c == ':' then
          let (layout, r) ← readLayout 0 r
          pure (.field name (some conversion) layout, r)
        else .error .afterConversion

def readPieces : Nat → List Char → List Piece × Option SyntaxError
  | 0, _ => ([], none)
  | n + 1, s =>
    let text := s.takeWhile (!isBrace ·)
    match s.dropWhile (!isBrace ·) with
    | [] => ([.literal text], none)
    | c :: r =>
      if r.head? == some c then
        let (pieces, fault) := readPieces n (r.drop 1)
        (.literal (text ++ [c]) :: pieces, fault)
      else if c == closeBrace then ([.literal text], some .singleClose)
      else if r.isEmpty then ([.literal text], some .singleOpen)
      else match readField r with
        | .error e => ([.literal text], some e)
        | .ok (field, r) =>
          let (pieces, fault) := readPieces n r
          (.literal text :: field :: pieces, fault)

def pieces (s : List Char) : List Piece × Option SyntaxError := readPieces (s.length + 1) s

inductive FillError where
  | unknownName (name : String)
  | noPosition (index : Nat)
  | malformed (e : SyntaxError)
  | layout (e : LayoutError)
  | step (e : StepError)
  | noLayout (kind : String)
  deriving Repr, DecidableEq

def FillError.message : FillError → String
  | .unknownName name => Text.Quoted.quote name
  | .noPosition i =>
    "Replacement index " ++ Decimal.ofNat i ++ " out of range for positional args tuple"
  | .malformed e => e.message
  | .layout e => e.message
  | .step e => e.message
  | .noLayout kind => "unsupported format string passed to " ++ kind ++ ".__format__"

def FillError.isAbsence : FillError → Bool
  | .unknownName _ | .noPosition _ | .step (.outOfRange _) => true
  | _ => false

def FillError.isOfAttribute : FillError → Bool
  | .step (.noAttribute _ _) => true
  | _ => false

abbrev Values := List (String × Value)

def index? (s : List Char) : Except SyntaxError (Option Nat) :=
  if s.isEmpty || s.any (!Text.isDigit ·) then .ok none
  else
    let n := s.foldl (fun n c => n * 10 + (Text.digitValue? c).getD 0) 0
    if Layout.numberLimit < n then .error .tooManyDigits else .ok (some n)

def follow : Nat → Member → List Char → Except FillError Member
  | 0, m, _ => .ok m
  | _, m, [] => .ok m
  | n + 1, m, '.' :: r => do
    let ends (c : Char) : Bool := c == '.' || c == '['
    let name := r.takeWhile (!ends ·)
    if name.isEmpty then .error (.malformed .emptyStep)
    else follow n (← (m.named (String.ofList name)).mapError .step) (r.dropWhile (!ends ·))
  | n + 1, m, '[' :: r => do
    let key := r.takeWhile (· != ']')
    match r.dropWhile (· != ']') with
    | [] => .error (.malformed .unclosedBracket)
    | _ :: rest =>
      if key.isEmpty then .error (.malformed .emptyStep)
      else
        let position ← (index? key).mapError .malformed
        follow n (← (m.item position).mapError .step) rest
  | _ + 1, _, _ :: _ => .error (.malformed .afterBracket)

def headName (name : List Char) : List Char := name.takeWhile fun c => c != '.' && c != '['

def lookUp (values : Values) (name : List Char) : Except FillError Member := do
  let head := headName name
  match ← (index? head).mapError .malformed with
  | some i => .error (.noPosition i)
  | none =>
    if head.isEmpty then .error (.noPosition 0)
    else match values.lookup (String.ofList head) with
      | none => .error (.unknownName (String.ofList head))
      | some v => follow name.length (.value v) (name.drop head.length)

def convert (m : Member) : Option Char → Except FillError Member
  | none => .ok m
  | some 's' => (m.shown.map Member.text).mapError .layout
  | some 'r' => ((m.quoted Text.Quoted.quote).map Member.text).mapError .layout
  | some 'a' => ((m.quoted Text.Quoted.quoteAscii).map Member.text).mapError .layout
  | some c => .error (.malformed (.unknownConversion c))

def layMember (m : Member) (layout : List Char) : Except FillError String :=
  match m with
  | .value v => (v.lay layout).mapError .layout
  | m => if layout.isEmpty then m.shown.mapError .layout else .error (.noLayout m.kindOf.name)

/-- The pieces in order, with the values filled in; layouts are filled in one level less deep. -/
def fillPieces (values : Values) (fillLayout : List Char → Except FillError (List Char)) :
    List Piece → Except FillError (List Char)
  | [] => .ok []
  | .literal text :: r => do pure (text ++ (← fillPieces values fillLayout r))
  | .field name conversion layout :: r => do
    let m ← convert (← lookUp values name) conversion
    let layout ← if layout.contains openBrace then fillLayout layout else pure layout
    let shown ← layMember m layout
    pure (shown.toList ++ (← fillPieces values fillLayout r))

def fillTo (values : Values) : Nat → List Char → Except FillError (List Char)
  | 0, _ => .error (.malformed .tooDeep)
  | levels + 1, s => do
    let (found, fault) := pieces s
    let text ← fillPieces values (fillTo values levels) found
    match fault with
    | some e => .error (.malformed e)
    | none => pure text

def fill (values : Values) (template : String) : Except FillError String :=
  (fillTo values 2 template.toList).map String.ofList

end ChangeImpact.Template
