import ChangeImpact.Text.LooseText
import ChangeImpact.Text.Split

/-!
# Paths

A path is what stands before its first part (nothing, one slash or exactly two) and its parts,
none of them empty or a single dot. Parent marks stay until the path is normalised, which
resolves them against the part before; above the root they vanish, and a relative path keeps
those that lead out of its start.
-/

namespace ChangeImpact

inductive Anchor where
  | relative
  | root
  | doubleRoot
  deriving Repr, DecidableEq

def Anchor.text : Anchor → String
  | .relative => ""
  | .root => "/"
  | .doubleRoot => "//"

structure Path where
  anchor : Anchor
  parts : List String
  deriving Repr, DecidableEq

namespace Path

def anchorOf : List Char → Anchor
  | '/' :: '/' :: '/' :: _ => .root
  | '/' :: '/' :: _ => .doubleRoot
  | '/' :: _ => .root
  | _ => .relative

def ofString (s : String) : Path :=
  ⟨anchorOf s.toList, (Text.fields '/' s).filter fun p => p != "" && p != "."⟩

def text (p : Path) : String :=
  match p.anchor, p.parts with
  | .relative, [] => "."
  | a, parts => a.text ++ "/".intercalate parts

def isAbsolute (p : Path) : Bool := p.anchor != .relative

def join (p q : Path) : Path :=
  if q.isAbsolute then q else ⟨p.anchor, p.parts ++ q.parts⟩

def child (p : Path) (s : String) : Path := p.join (ofString s)

def down (p : Path) (parts : List String) : Path := ⟨p.anchor, p.parts ++ parts⟩

def parent (p : Path) : Path := ⟨p.anchor, p.parts.dropLast⟩

def name (p : Path) : String := p.parts.getLast?.getD ""

/-- A name cut before its last dot, unless that dot is its first or last character. -/
def cutName (s : String) : String × String :=
  let after := (s.toList.reverse.takeWhile (· != '.')).reverse
  let before := s.toList.take (s.length - after.length - 1)
  if after.isEmpty || before.isEmpty || !s.toList.contains '.' then (s, "")
  else (String.ofList before, String.ofList ('.' :: after))

def stem (p : Path) : String := (cutName p.name).1

def suffix (p : Path) : String := (cutName p.name).2

def holdsNull (p : Path) : Bool := p.parts.any (·.toList.contains '\x00')

/-- Resolves parent marks, which are spelled `up`; `done` holds the parts so far, the last one first. -/
def resolveParts {α : Type} [BEq α] (up : α) (absolute : Bool) (done : List α) :
    List α → List α
  | [] => done.reverse
  | c :: r =>
    if c != up || (!absolute && done.isEmpty) || done.head? == some up then
      resolveParts up absolute (c :: done) r
    else resolveParts up absolute done.tail r

def normalise (p : Path) : Path := ⟨p.anchor, resolveParts ".." p.isAbsolute [] p.parts⟩

/-- The place that an absolute path leads to where no folder is a link. -/
def resolve (p : Path) : Path := ⟨.root, p.normalise.parts⟩

def below? (base p : Path) : Option (List String) :=
  if base.anchor = p.anchor && base.parts.isPrefixOf p.parts then
    some (p.parts.drop base.parts.length)
  else none

def ofParts (parts : List String) : String := text ⟨.relative, parts⟩

def normalText (s : String) : String := (ofString s).normalise.text

/-- What stands before the last slash, without the slashes at its end unless it is all
slashes. -/
def directoryText (s : String) : String :=
  let dir := (s.toList.reverse.dropWhile (· != '/')).reverse
  let bare := Text.trimRight (· == '/') dir
  String.ofList (if bare.isEmpty then dir else bare)

def joinText (a b : String) : String :=
  if b.toList.head? == some '/' then b
  else if a == "" || a.toList.getLast? == some '/' then a ++ b
  else a ++ "/" ++ b

end Path

structure OutsideRoot where
  value : LooseText
  root : Path
  deriving Repr, DecidableEq

def OutsideRoot.message (e : OutsideRoot) : LooseText :=
  e.value ++ .ofString (" is outside the repository root " ++ e.root.text)

/-- The form that a path has inside the repository at `root`, where the user gives it relative
to that root or absolute. -/
def Path.inRepository (root : Path) (value : String) : Except OutsideRoot String :=
  match root.normalise.below? (root.join (ofString value)).normalise with
  | some parts => .ok (ofParts parts)
  | none => .error ⟨value, root⟩

end ChangeImpact
