import ChangeImpact.Change.Diff
import ChangeImpact.Imports.Scan

/-!
# Warnings from a diff

Patterns in the lines of a hunk that tend to hide a fault: an array made of a property that may
be missing, a function whose returned values change their shape, and a call that is no longer
awaited. A warning names the file and the line of the new file.
-/

namespace ChangeImpact.Risk

open Text

inductive WarningKind where
  | arrayFromProperty
  | returnShapeChanged
  | awaitRemoved
  | other (name : String)
  deriving Repr, DecidableEq

namespace WarningKind

def name : WarningKind → String
  | arrayFromProperty => "array_from_property"
  | returnShapeChanged => "return_shape_changed"
  | awaitRemoved => "await_removed"
  | other name => name

def ofName (s : String) : WarningKind :=
  ([arrayFromProperty, returnShapeChanged, awaitRemoved].find? (·.name == s)).getD (.other s)

end WarningKind

structure Warning where
  kind : WarningKind
  path : String
  line : Int := 0
  message : String
  deriving Repr, DecidableEq

namespace Warning

def backtick : String := "`"

def isNameStart (c : Char) : Bool :=
  ('a' ≤ c && c ≤ 'z') || ('A' ≤ c && c ≤ 'Z') || c == '_' || c == '$'

def isNamePart (c : Char) : Bool := isWord c || c == '$'

def skipBlanks (s : List Char) : List Char := s.dropWhile isBlank

def name? (s : List Char) : Option (List Char × List Char) :=
  match s with
  | c :: r =>
    if isNameStart c then some (c :: r.takeWhile isNamePart, r.dropWhile isNamePart) else none
  | [] => none

def property? (s : List Char) : Option (List Char × List Char) :=
  match s with
  | '.' :: r => (name? r).map fun (n, rest) => ('.' :: n, rest)
  | '?' :: '.' :: r => (name? r).map fun (n, rest) => ('?' :: '.' :: n, rest)
  | _ => none

def properties : Nat → List Char → List Char × List Char
  | 0, s => ([], s)
  | n + 1, s =>
    match property? s with
    | some (p, r) =>
      let (ps, rest) := properties n r
      (p ++ ps, rest)
    | none => ([], s)

/-- A property of a named value in brackets, perhaps spread: whether it is spread, and the
property. -/
def bracketed : Imports.Recogniser (Bool × List Char) := fun _ s => do
  let r ← after? ['['] s
  let r := skipBlanks r
  let (spread, r) := match after? "...".toList r with
    | some r => (true, skipBlanks r)
    | none => (false, r)
  let (name, r) ← name? r
  let (first, r) ← property? r
  let (more, r) := properties r.length r
  let r ← after? [']'] (skipBlanks r)
  pure ((spread, name ++ first ++ more), s.length - r.length)

def literalContexts : List (List Char) :=
  ["=", "(", ",", ":", "[", "\x7b", "?", "return", "=>"].map String.toList

/-- A bracket behind `before` begins an array and not an index. -/
def beginsArray (before : List Char) : Bool :=
  let before := trimRight isBlank before
  before.isEmpty || literalContexts.any (·.isSuffixOf before)

def arrayMessage (spread : Bool) (property : List Char) : String :=
  let shown := backtick ++ String.ofList property ++ backtick
  if spread then
    "Spreading " ++ shown ++ " into an array throws if it is undefined; add a default (" ++
      backtick ++ "?? []" ++ backtick ++ ")."
  else
    "Array literal built from " ++ shown ++ "; if the property is missing the array holds " ++
      backtick ++ "undefined" ++ backtick ++ " instead of being empty."

def arraysFromProperties (path : String) (h : Hunk) : List Warning :=
  h.numberedAdditions.flatMap fun (line, text) =>
    let s := text.toList
    (Imports.findAll bracketed s).filterMap fun (place, spread, property) =>
      if beginsArray (s.take place) then
        some ⟨.arrayFromProperty, path, line, arrayMessage spread property⟩
      else none

def isNumber (s : List Char) : Bool :=
  let r := match s with
    | '-' :: r => r
    | _ => s
  let rest := r.dropWhile isDigit
  if (r.takeWhile isDigit).isEmpty then false
  else match rest with
    | [] => true
    | '.' :: ds => !ds.isEmpty && ds.all isDigit
    | _ => false

def shapeOf (expression : String) : String :=
  let e := strip (trimRight (· == ';') (strip expression.toList))
  let text := String.ofList e
  match e with
  | [] => "nothing"
  | c :: _ =>
    if c == '\x7b' then "object"
    else if c == '[' then "array"
    else if ["null", "undefined", "None", "nil"].contains text then "null"
    else if ["true", "false", "True", "False"].contains text then "boolean"
    else if c == '"' || c == '\'' || c == '\x60' then "string"
    else if isNumber e then "number"
    else "expression"

def returned? (line : String) : Option String := do
  let r ← after? "return".toList (skipBlanks line.toList)
  if r.head?.any isWord then none
  else
    let e := trimRight isBlank (skipBlanks r)
    let e := if e.getLast? == some ';' then trimRight isBlank e.dropLast else e
    some (String.ofList e)

/-- The shapes that tell something, sorted, each once. -/
def tellingShapes (shapes : List String) : List String :=
  ((shapes.filter (· != "expression")).eraseDups).mergeSort fun a b => a ≤ b

def shapeChanges (path : String) (h : Hunk) : List Warning :=
  let old := tellingShapes (h.removed.filterMap fun l => (returned? l).map shapeOf)
  let returns := h.numberedAdditions.filterMap fun (line, text) =>
    (returned? text).map fun e => (line, shapeOf e)
  let new := tellingShapes (returns.map (·.2))
  match returns.find? fun (_, shape) => new.contains shape with
  | none => []
  | some (line, _) =>
    if old.isEmpty || old.any new.contains then []
    else
      [⟨.returnShapeChanged, path, line,
        "Return value changed from " ++ "/".intercalate old ++ " to " ++ "/".intercalate new ++
          "; callers may rely on the old shape."⟩]

def awaitedCall : Imports.Recogniser (List Char) := fun before s =>
  if Imports.atWordStart before then do
    let r ← after? "await".toList s
    if !r.head?.any isBlank then none
    else
      let r := skipBlanks r
      let c ← r.head?
      if !isNameStart c then none
      else
        let isPart (c : Char) : Bool := isNamePart c || c == '.'
        let rest ← after? ['('] (skipBlanks (r.dropWhile isPart))
        pure (r.takeWhile isPart, s.length - rest.length)
  else none

def awaitMessage (name : List Char) : String :=
  backtick ++ String.ofList name ++ "(...)" ++ backtick ++
    " was awaited before and is not any more; the caller now gets a pending promise."

/-- The names of a hunk are a set; they are taken in the order of what is said of them. -/
def awaitedNames (h : Hunk) : List (List Char) :=
  let names := h.removed.flatMap fun l => (Imports.findAll awaitedCall l.toList).map (·.2)
  names.eraseDups.mergeSort fun a b => awaitMessage a ≤ awaitMessage b

def call (name : List Char) : Imports.Recogniser Unit := fun before s => do
  if before.any fun c => isNamePart c || c == '.' then none
  else
    let r ← after? name s
    let r ← after? ['('] (skipBlanks r)
    pure ((), s.length - r.length)

def endsAwaiting (s : List Char) : Bool :=
  let bare := trimRight isBlank s
  bare.length < s.length && "await".toList.isSuffixOf bare &&
    Imports.atWordStart (bare.take (bare.length - 5)).getLast?

/-- The first call of `name` in a line is not awaited. -/
def callsPlainly (name line : List Char) : Bool :=
  match Imports.findAll (call name) line with
  | (place, _) :: _ => !endsAwaiting (line.take place)
  | [] => false

def droppedAwaits (path : String) (h : Hunk) : List Warning :=
  let names := awaitedNames h
  h.numberedAdditions.flatMap fun (line, text) =>
    (names.filter (callsPlainly · text.toList)).map fun name =>
      ⟨.awaitRemoved, path, line, awaitMessage name⟩

def ofHunk (path : String) (h : Hunk) : List Warning :=
  arraysFromProperties path h ++ shapeChanges path h ++ droppedAwaits path h

def ofFile (d : FileDiff) : List Warning := d.hunks.flatMap (ofHunk d.path)

def scan (text : String) : Except Diff.DiffError (List Warning) :=
  (Diff.read text).map (·.flatMap ofFile)

end Warning

end ChangeImpact.Risk
