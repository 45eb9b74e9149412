import ChangeImpact.Imports.Scan

/-!
# Imports of Go

A single import stands on a line of its own; a block in parentheses, which ends with the first
closing one, has an import on each of its lines. A name may come before the quoted path.
-/

namespace ChangeImpact.Imports.Go

open Text

def quoted? : List Char → Option (List Char × List Char)
  | '"' :: r =>
    let isPlain (c : Char) : Bool := c != '"' && c != '\n'
    if (r.takeWhile isPlain).isEmpty then none
    else match r.dropWhile isPlain with
      | '"' :: rest => some (r.takeWhile isPlain, rest)
      | _ => none
  | _ => none

def spec? (s : List Char) : Option (List Char × List Char) :=
  match dottedName? s with
  | some (_, r) => (margin? r).bind quoted?
  | none => quoted? s

def single : Recogniser (List Char) := fun before s =>
  if atLineStart before then do
    let r ← after? "import".toList (skipMargin s)
    let r ← margin? r
    let (path, rest) ← spec? r
    pure (path, s.length - rest.length)
  else none

def entry : Recogniser (List Char) := fun before s =>
  if atLineStart before then do
    let (path, rest) ← spec? (skipMargin s)
    pure (path, s.length - rest.length)
  else none

/-- What stands inside a block, and how far behind the start of the block it begins. -/
def block : Recogniser (Nat × List Char) := fun before s =>
  if atLineStart before then do
    let r ← after? "import".toList (skipMargin s)
    let r ← after? ['('] (skipMargin r)
    let (inside, rest) ← cut? ')' r
    pure ((s.length - r.length, inside), s.length - rest.length)
  else none

def specifiers (s : List Char) : List (List Char) :=
  inOrder (findAll single s ++
    (findAll block s).flatMap fun (place, offset, inside) =>
      (findAll entry inside).map fun (at_, path) => (place + offset + at_, path))

end ChangeImpact.Imports.Go
