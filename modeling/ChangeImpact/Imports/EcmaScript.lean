import ChangeImpact.Imports.Scan

/-!
# Imports of ECMAScript

Four forms name another module: a clause with `from` after `import` or `export`, an import for
its effects alone, a call of `require`, and a call of `import`. The name stands between quotes
of either kind, which need not be the same, on one line.
-/

namespace ChangeImpact.Imports.EcmaScript

open Text

def isQuote (c : Char) : Bool := c == '\'' || c == '"'

def isPlain (c : Char) : Bool := !isQuote c && c != '\n'

def quoted? : List Char → Option (List Char × List Char)
  | [] => none
  | q :: r =>
    if !isQuote q || (r.takeWhile isPlain).isEmpty then none
    else match r.dropWhile isPlain with
      | e :: rest => if isQuote e then some (r.takeWhile isPlain, rest) else none
      | [] => none

def skipBlanks (s : List Char) : List Char := s.dropWhile isBlank

def inClause (c : Char) : Bool :=
  isWord c || isBlank c || ['*', '\x7b', '\x7d', ',', '$'].contains c

def fromQuoted? (before : Option Char) (s : List Char) : Option (List Char × List Char) :=
  if atWordStart before then (after? "from".toList s).bind fun r => quoted? (skipBlanks r)
  else none

/-- The first place behind a clause where `from` and a quoted text stand. -/
def clause? (before : Option Char) : List Char → Option (List Char × List Char)
  | [] => none
  | c :: r =>
    match fromQuoted? before (c :: r) with
    | some found => some found
    | none => if inClause c then clause? (some c) r else none

def clauseAfter? : List Char → Option (List Char × List Char)
  | c :: r => if isBlank c then clause? (some c) r else none
  | [] => none

def argument? (s : List Char) : Option (List Char × List Char) := do
  let r ← after? ['('] (skipBlanks s)
  let (name, r) ← quoted? (skipBlanks r)
  let r ← after? [')'] (skipBlanks r)
  pure (name, r)

def form (words : List String) (rest? : List Char → Option (List Char × List Char)) :
    Recogniser (List Char) := fun before s =>
  if atWordStart before then
    words.findSome? fun w => do
      let r ← after? w.toList s
      let (name, rest) ← rest? r
      pure (name, s.length - rest.length)
  else none

def forms : List (Recogniser (List Char)) :=
  [form ["import", "export"] clauseAfter?,
    form ["import"] fun r => quoted? (skipBlanks r),
    form ["require"] argument?,
    form ["import"] argument?]

/-- The names in the order of the forms; no form begins inside another before its name. -/
def specifiers (s : List Char) : List (List Char) :=
  inOrder (forms.flatMap fun f => findAll f s)

end ChangeImpact.Imports.EcmaScript
