import ChangeImpact.Console.Literal
import ChangeImpact.Console.Pictograph
import ChangeImpact.Console.Style

/-!
# Markup

Text for the terminal may hold tags in brackets, which style what stands up to the tag that
closes them, and names of pictographs between colons. Without colours tags are only taken out. A
bracket begins a tag if a lower-case letter, `#`, `/` or `@` follows; a backslash before a tag
makes text of it. A closing tag describes the style that it closes, or closes the last one; it
must have one to close. A tag that begins with `@` may have parameters, which are looked at when
it is closed.
-/

namespace ChangeImpact.Console

inductive MarkupError where
  | unmatched (tag : String)
  | nothingOpen
  | badParameters (parameters : String)
  | style (e : StyleFault)
  deriving Repr, DecidableEq

inductive Piece where
  | stretch (s : List Char)
  | literal (s : List Char)
  | tag (inside : List Char)
  deriving Repr, DecidableEq

def beginsTag (c : Char) : Bool := ('a' ≤ c && c ≤ 'z') || c == '#' || c == '/' || c == '@'

def tag? : List Char → Option (List Char)
  | '[' :: c :: r =>
    let isInside (c : Char) : Bool := c != '[' && c != ']'
    if beginsTag c && (r.dropWhile isInside).head? == some ']' then some (c :: r.takeWhile isInside)
    else none
  | _ => none

def consText (s : List Char) : List Piece → List Piece
  | .stretch t :: r => .stretch (s ++ t) :: r
  | r => if s.isEmpty then r else .stretch s :: r

def backslashes (n : Nat) : List Char := List.replicate n '\\'

/-- The pieces of a text; `skip` characters belong to a tag already found, and `slashes`
backslashes come before. Two of them before a tag stand for one. -/
def piecesFrom (skip slashes : Nat) : List Char → List Piece
  | [] => consText (backslashes slashes) []
  | c :: r =>
    match skip with
    | k + 1 => piecesFrom k 0 r
    | 0 =>
      if c == '\\' then piecesFrom 0 (slashes + 1) r
      else match tag? (c :: r) with
        | some inside =>
          .literal (backslashes (slashes / 2)) ::
            (if slashes % 2 = 1 then .literal ('[' :: inside ++ [']']) else .tag inside) ::
              piecesFrom (inside.length + 1) 0 r
        | none =>
          consText (backslashes (if c == '[' then slashes - 1 else slashes) ++ [c])
            (piecesFrom 0 0 r)

def pieces (s : List Char) : List Piece := piecesFrom 0 0 s

/-- A tag that waits to be closed: the normal form of its style, and its parameters. -/
structure Opened where
  style : String
  parameters : List Char
  deriving Repr, DecidableEq

/-- Parameters are a literal, or a name that a literal in round brackets may follow. -/
def areParameters (s : List Char) : Bool :=
  let s := Text.strip s
  let isName (c : Char) : Bool := Text.isWord c || c == '.'
  let arguments := s.dropWhile isName
  let isCall := arguments.head? == some '(' && arguments.getLast? == some ')' &&
    !arguments.contains '\n'
  arguments.isEmpty || Literal.isLiteral (if isCall then arguments else s)

def Opened.close (o : Opened) : Except MarkupError Unit :=
  if o.style.toList.head? == some '@' && !o.parameters.isEmpty && !areParameters o.parameters then
    .error (.badParameters (String.ofList o.parameters))
  else .ok ()

def closeTag (opened : List Opened) (inside name : List Char) :
    Except MarkupError (List Opened) := do
  if name.isEmpty then
    match opened with
    | [] => throw .nothingOpen
    | o :: r =>
      o.close
      pure r
  else
    let style ← (Style.normalForm name).mapError .style
    match opened.find? (·.style == style) with
    | none => throw (.unmatched (String.ofList inside))
    | some o =>
      o.close
      pure (opened.eraseP (·.style == style))

/-- The text of the pieces, where the tags in `opened` wait to be closed, the last one first. -/
def textOf (opened : List Opened) : List Piece → Except MarkupError (List Char)
  | [] => .ok []
  | .stretch s :: r => (textOf opened r).map (showNames none s ++ ·)
  | .literal s :: r => (textOf opened r).map (showNames none s ++ ·)
  | .tag inside :: r =>
    let name := inside.takeWhile (· != '=')
    match name with
    | '/' :: closed => do textOf (← closeTag opened inside (Text.strip closed)) r
    | _ => do
      let style ← (Style.normalForm name).mapError .style
      textOf (⟨style, inside.drop (name.length + 1)⟩ :: opened) r

def isStripped (c : Char) : Bool := ['\x07', '\x08', '\x0b', '\x0c', '\r'].contains c

def plainText (s : String) : Except MarkupError (List Char) :=
  (textOf [] (pieces s.toList)).map (·.filter (!isStripped ·))

end ChangeImpact.Console
