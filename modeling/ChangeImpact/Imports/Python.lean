import ChangeImpact.Imports.Scan

/-!
# Imports of Python

Statements stand at the start of a line, behind blanks and tabs. `import` lists modules, each
perhaps under another name. `from` names one module; if that is dots alone, the imported names
are modules beside it, and they may stand in parentheses over several lines with comments.
-/

namespace ChangeImpact.Imports.Python

open Text

def isNameChar (c : Char) : Bool := isWord c

def skipAlias (s : List Char) : List Char :=
  let behind := do
    let r ← margin? s
    let r ← after? "as".toList r
    let r ← margin? r
    if (r.takeWhile isNameChar).isEmpty then none else some (r.dropWhile isNameChar)
  behind.getD s

def moreModules : Nat → List Char → List (List Char) × List Char
  | 0, s => ([], s)
  | n + 1, s =>
    match after? [','] (skipMargin s) with
    | none => ([], s)
    | some r =>
      match dottedName? (skipMargin r) with
      | none => ([], s)
      | some (name, r) =>
        let (names, rest) := moreModules n (skipAlias r)
        (name :: names, rest)

def importStatement : Recogniser (List (List Char)) := fun before s =>
  if atLineStart before then do
    let r ← after? "import".toList (skipMargin s)
    let r ← margin? r
    let (name, r) ← dottedName? r
    let (names, rest) := moreModules r.length (skipAlias r)
    pure (name :: names, s.length - rest.length)
  else none

def parenthesised? : List Char → Option (List Char × List Char)
  | '(' :: r => (cut? ')' r).map fun (inside, rest) => ('(' :: inside ++ [')'], rest)
  | _ => none

/-- The imported names: in parentheses, or up to the end of the line. Where nothing stands
there, the last of several blanks takes their place. -/
def importedNames? (s : List Char) : Option (List Char × List Char) :=
  let margin := s.takeWhile isMargin
  let r := s.dropWhile isMargin
  let line := r.takeWhile (· != '\n')
  if margin.isEmpty then none
  else match parenthesised? r with
    | some found => some found
    | none =>
      if !line.isEmpty then some (line, r.dropWhile (· != '\n'))
      else if 2 ≤ margin.length then some (margin.drop (margin.length - 1), r)
      else none

def fromStatement : Recogniser (List Char × List Char) := fun before s =>
  if atLineStart before then do
    let r ← after? "from".toList (skipMargin s)
    let r ← margin? r
    let (module, r) ← dottedName? r
    let r ← margin? r
    let r ← after? "import".toList r
    let (names, rest) ← importedNames? r
    pure ((module, names), s.length - rest.length)
  else none

def withoutComments (inComment : Bool) : List Char → List Char
  | [] => []
  | c :: r =>
    if c == '\n' then c :: withoutComments false r
    else if inComment || c == '#' then withoutComments true r
    else c :: withoutComments false r

def isWrapping (c : Char) : Bool := ['(', ')', ' ', '\t', '\n'].contains c

def members (names : List Char) : List (List Char) :=
  ((splitOn ',' (trim isWrapping (withoutComments false names))).filterMap
    fun n => (words n).head?).filter (· != ['*'])

def referred (module names : List Char) : List (List Char) :=
  if module.any (· != '.') || (members names).isEmpty then [module]
  else (members names).map (module ++ ·)

def each (found : List (Nat × List (List Char))) : List (Nat × List Char) :=
  found.flatMap fun (place, names) => names.map fun n => (place, n)

def specifiers (s : List Char) : List (List Char) :=
  inOrder (each (findAll importStatement s) ++
    each ((findAll fromStatement s).map fun (place, m, names) => (place, referred m names)))

end ChangeImpact.Imports.Python
