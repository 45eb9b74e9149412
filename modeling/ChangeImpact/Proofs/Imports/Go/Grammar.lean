import ChangeImpact.Imports.Go
import ChangeImpact.Proofs.Imports.Scanning

/-!
# Import declarations of Go as they are written

A program is made of single imports, of blocks of imports in parentheses and of other lines. In a
block at most one import stands on a line; a comment may end any line of a declaration, and a line
of a block may be nothing but a comment. `paths` is what a program imports, and `IsRead` says
where just this is read: in no block a closing parenthesis stands before the end of a path.
-/

namespace ChangeImpact.Imports.Go

open Text

/-! ## One import -/

def importWord : List Char := "import".toList

def inName (c : Char) : Bool := isWord c || c == '.'

def isPlain (c : Char) : Bool := c != '"' && c != '\n'

structure Alias where
  name : List Char
  ne_nil : name ≠ []
  inName : ∀ c ∈ name, inName c = true
  noKeyword : name ≠ importWord
  toPath : Gap

def Alias.text (a : Alias) : List Char := a.name ++ a.toPath.text

structure Spec where
  renamed : Option Alias
  path : List Char
  ne_nil : path ≠ []
  isPlain : ∀ c ∈ path, isPlain c = true

def Spec.opening (e : Spec) : List Char := e.renamed.elim [] Alias.text

def Spec.text (e : Spec) : List Char := e.opening ++ '"' :: (e.path ++ ['"'])

/-! ## Lines -/

structure Indent where
  text : List Char
  isMargin : ∀ c ∈ text, isMargin c = true

structure Comment where
  text : List Char
  oneLine : '\n' ∉ text

def Comment.spelling (c : Comment) : List Char := '/' :: '/' :: c.text

structure LineEnd where
  blanks : List Char
  isBlank : ∀ c ∈ blanks, isBlank c = true ∧ c ≠ '\n'
  comment : Option Comment

def LineEnd.text (e : LineEnd) : List Char := e.blanks ++ e.comment.elim [] Comment.spelling

structure Line where
  indent : Indent
  spec : Option Spec
  ending : LineEnd

namespace Line

def text (l : Line) : List Char :=
  l.indent.text ++ (l.spec.elim [] Spec.text ++ l.ending.text)

/-- What is read of the line ends before a closing parenthesis. -/
def IsRead (l : Line) : Prop := ∀ e ∈ l.spec, ')' ∉ e.text

end Line

def joined (lines : List Line) : List Char := ['\n'].intercalate (lines.map Line.text)

def pathsOf (lines : List Line) : List (List Char) := lines.filterMap fun l => l.spec.map Spec.path

/-- No closing parenthesis stands before the end of a path. -/
def AreRead : List Line → Prop
  | [] => True
  | l :: r => l.IsRead ∧ (pathsOf r = [] ∨ ')' ∉ l.text ∧ AreRead r)

/-! ## Declarations and programs -/

structure Single where
  indent : Indent
  toSpec : Gap
  spec : Spec
  ending : LineEnd

def Single.text (d : Single) : List Char :=
  d.indent.text ++ (importWord ++ (d.toSpec.text ++ (d.spec.text ++ d.ending.text)))

structure Block where
  indent : Indent
  toLines : Indent
  lines : List Line
  last : Line
  uncommented : last.ending.comment = none
  ending : LineEnd

namespace Block

def all (b : Block) : List Line := b.lines ++ [b.last]

def text (b : Block) : List Char :=
  b.indent.text ++ (importWord ++
    (b.toLines.text ++ '(' :: (joined b.all ++ ')' :: b.ending.text)))

end Block

def BeginsWithImport (s : List Char) : Prop :=
  ∃ r, skipMargin s = importWord ++ r ∧ ∀ c ∈ r.head?, inName c = false

structure OtherLine where
  text : List Char
  oneLine : '\n' ∉ text
  noImport : ¬ BeginsWithImport text

inductive Item where
  | single (d : Single)
  | block (b : Block)
  | other (l : OtherLine)

namespace Item

def text : Item → List Char
  | single d => d.text
  | block b => b.text
  | other l => l.text

def paths : Item → List (List Char)
  | single d => [d.spec.path]
  | block b => pathsOf b.all
  | other _ => []

def IsRead : Item → Prop
  | single _ => True
  | block b => AreRead b.all
  | other _ => True

end Item

structure Program where
  items : List Item

def Program.text (p : Program) : List Char := ['\n'].intercalate (p.items.map Item.text)

def Program.paths (p : Program) : List (List Char) := p.items.flatMap Item.paths

end ChangeImpact.Imports.Go
