import ChangeImpact.Imports.Python
import ChangeImpact.Proofs.Imports.Scanning
import ChangeImpact.Proofs.Text.Words

/-!
# Import statements of Python as they are written

A program is made of import statements and of other lines. Blanks and tabs stand between the
words of a statement and may stand around its commas, and a comment may end its line. In
parentheses a from statement goes on over several lines, each with a comment of its own. `names`
is what a program imports, as it is written, and `IsRead` says where just this is read: no
closing parenthesis stands in a comment before a further name, and modules are made of the
characters of words.
-/

namespace ChangeImpact.Imports.Python

open Text

/-! ## Names -/

inductive Keyword where
  | import_
  | from_
  deriving Repr, DecidableEq

def Keyword.word : Keyword → List Char
  | import_ => "import".toList
  | from_ => "from".toList

theorem Keyword.word_import : import_.word = "import".toList := rfl

theorem Keyword.word_from : from_.word = "from".toList := rfl

def inIdentifier (c : Char) : Bool := isWord c || (128 ≤ c.toNat && !isBlank c)

theorem inIdentifier_of_isWord {c : Char} (h : isWord c = true) : inIdentifier c = true := by
  rw [inIdentifier, h, Bool.true_or]

theorem isBlank_of_inIdentifier {c : Char} (h : inIdentifier c = true) : isBlank c = false := by
  by_contra hblank
  rw [Bool.not_eq_false] at hblank
  rw [inIdentifier, isWord_of_isBlank hblank, hblank] at h
  simp at h

def marks : List Char := ['.', ',', '#', '(', ')', '*', ' ', '\t', '\n']

theorem notMem_marks_of_inIdentifier {c : Char} (h : inIdentifier c = true) : c ∉ marks := by
  have hmarks : marks.all fun m => !inIdentifier m := by decide
  intro hc
  simpa [h] using List.all_eq_true.mp hmarks c hc

theorem isMargin_of_inIdentifier {c : Char} (h : inIdentifier c = true) :
    isMargin c = false := by
  rw [Bool.eq_false_iff, ne_eq, isMargin_iff]
  rintro (rfl | rfl)
  · exact notMem_marks_of_inIdentifier h (by decide)
  · exact notMem_marks_of_inIdentifier h (by decide)

structure Identifier where
  text : List Char
  ne_nil : text ≠ []
  isPart : ∀ c ∈ text, inIdentifier c = true
  noKeyword : ∀ k : Keyword, text ≠ k.word

theorem Identifier.exists_cons (i : Identifier) :
    ∃ c r, i.text = c :: r ∧ inIdentifier c = true := by
  obtain ⟨c, r, hi⟩ := List.exists_cons_of_ne_nil i.ne_nil
  exact ⟨c, r, hi, i.isPart c (hi ▸ List.mem_cons_self)⟩

structure Dotted where
  first : Identifier
  more : List Identifier

def Dotted.text (d : Dotted) : List Char :=
  ['.'].intercalate ((d.first :: d.more).map Identifier.text)

theorem Dotted.exists_cons (d : Dotted) : ∃ c r, d.text = c :: r ∧ inIdentifier c = true := by
  obtain ⟨c, r, hfirst, hc⟩ := d.first.exists_cons
  cases hmore : d.more with
  | nil => exact ⟨c, r, by rw [text, hmore]; simpa using hfirst, hc⟩
  | cons i l =>
    rw [text, hmore, List.map_cons, List.map_cons, List.intercalate_cons_cons, hfirst]
    exact ⟨c, _, rfl, hc⟩

theorem Dotted.inIdentifier_or_dot (d : Dotted) :
    ∀ c ∈ d.text, inIdentifier c = true ∨ c = '.' := by
  intro c hc
  rcases mem_intercalate hc with hdot | ⟨x, hx, hc⟩
  · exact .inr (List.mem_singleton.mp hdot)
  · obtain ⟨i, -, rfl⟩ := List.mem_map.mp hx
    exact .inl (i.isPart c hc)

def IsLegible (module : List Char) : Prop := ∀ c ∈ module, (isWord c || c == '.') = true

/-! ## Blanks and comments -/

structure Blanks where
  text : List Char
  isMargin : ∀ c ∈ text, isMargin c = true

structure Comment where
  text : List Char
  oneLine : '\n' ∉ text

def Comment.spelling (c : Comment) : List Char := '#' :: c.text

structure LineEnd where
  blanks : Blanks
  comment : Option Comment

def LineEnd.text (e : LineEnd) : List Char := e.blanks.text ++ e.comment.elim [] Comment.spelling

structure Space where
  ends : List LineEnd
  blanks : Blanks

def Space.text (s : Space) : List Char :=
  (s.ends.flatMap fun e => e.text ++ ['\n']) ++ s.blanks.text

/-! ## `import` -/

structure Alias where
  toAs : Gap
  toName : Gap
  name : Identifier

def Alias.text (a : Alias) : List Char :=
  a.toAs.text ++ ("as".toList ++ (a.toName.text ++ a.name.text))

structure Imported where
  module : Dotted
  renamed : Option Alias

def Imported.text (i : Imported) : List Char := i.module.text ++ i.renamed.elim [] Alias.text

inductive Modules where
  | last (i : Imported)
  | more (i : Imported) (before behind : Blanks) (rest : Modules)

namespace Modules

def text : Modules → List Char
  | last i => i.text
  | more i before behind rest => i.text ++ (before.text ++ ',' :: (behind.text ++ rest.text))

def names : Modules → List (List Char)
  | last i => [i.module.text]
  | more i _ _ rest => i.module.text :: rest.names

/-- What stands behind the last module is of no account. -/
def IsRead : Modules → Prop
  | last i => IsLegible i.module.text
  | more i _ _ rest =>
    IsLegible i.module.text ∧ (∀ a ∈ i.renamed, ∀ c ∈ a.name.text, isWord c = true) ∧ rest.IsRead

end Modules

structure ImportLine where
  margin : Blanks
  toModules : Gap
  modules : Modules
  ending : LineEnd

def ImportLine.text (l : ImportLine) : List Char :=
  l.margin.text ++ (Keyword.import_.word ++
    (l.toModules.text ++ (l.modules.text ++ l.ending.text)))

/-! ## `from` -/

inductive Origin where
  | dots (more : Nat)
  | named (up : Nat) (path : Dotted)

def Origin.text : Origin → List Char
  | dots more => List.replicate (more + 1) '.'
  | named up path => List.replicate up '.' ++ path.text

theorem Origin.exists_cons (o : Origin) : ∃ c r, o.text = c :: r ∧ isMargin c = false := by
  cases o with
  | dots more => exact ⟨'.', _, rfl, by decide⟩
  | named up path =>
    cases up with
    | zero =>
      obtain ⟨c, r, hpath, hc⟩ := path.exists_cons
      exact ⟨c, r, hpath, isMargin_of_inIdentifier hc⟩
    | succ n => exact ⟨'.', _, rfl, by decide⟩

theorem Origin.inIdentifier_or_dot (o : Origin) :
    ∀ c ∈ o.text, inIdentifier c = true ∨ c = '.' := by
  have hdots (n : Nat) : ∀ c ∈ List.replicate n '.', inIdentifier c = true ∨ c = '.' :=
    fun c hc => .inr (List.eq_of_mem_replicate hc)
  cases o with
  | dots more => exact hdots (more + 1)
  | named up path => exact List.forall_mem_append.mpr ⟨hdots up, path.inIdentifier_or_dot⟩

structure Renaming where
  toName : Space
  name : Identifier
  behind : Space
  apart : toName.text ≠ []

def Renaming.text (r : Renaming) : List Char :=
  "as".toList ++ (r.toName.text ++ (r.name.text ++ r.behind.text))

structure Member where
  name : Identifier
  behind : Space
  renamed : Option Renaming
  apart : renamed.isSome = true → behind.text ≠ []

def Member.tail (m : Member) : List Char := m.behind.text ++ m.renamed.elim [] Renaming.text

def Member.text (m : Member) : List Char := m.name.text ++ m.tail

inductive Members where
  | last (m : Member) (comma : Option Space)
  | more (m : Member) (comma : Space) (rest : Members)

namespace Members

def text : Members → List Char
  | last m comma => m.text ++ comma.elim [] fun s => ',' :: s.text
  | more m comma rest => m.text ++ ',' :: (comma.text ++ rest.text)

def names : Members → List (List Char)
  | last m _ => [m.name.text]
  | more m _ rest => m.name.text :: rest.names

def OneLine : Members → Prop
  | last m comma => '\n' ∉ m.text ∧ comma.isNone = true
  | more m comma rest => '\n' ∉ m.text ∧ '\n' ∉ comma.text ∧ rest.OneLine

def ReadUpTo (stop : Char) : Members → Prop
  | last _ _ => True
  | more m comma rest => stop ∉ m.text ∧ stop ∉ comma.text ∧ rest.ReadUpTo stop

end Members

inductive Choice where
  | star
  | plain (members : Members) (oneLine : members.OneLine)
  | enclosed (opening : Space) (members : Members)

namespace Choice

def text : Choice → List Char
  | star => ['*']
  | plain members _ => members.text
  | enclosed opening members => '(' :: (opening.text ++ (members.text ++ [')']))

def names : Choice → List (List Char)
  | star => []
  | plain members _ => members.names
  | enclosed _ members => members.names

/-- Names in parentheses are read up to the first closing parenthesis, though it stand in a
comment. -/
def IsRead : Choice → Prop
  | star => True
  | plain _ _ => True
  | enclosed opening members => ')' ∉ opening.text ∧ members.ReadUpTo ')'

end Choice

structure FromLine where
  margin : Blanks
  toModule : Gap
  origin : Origin
  toImport : Gap
  toNames : Gap
  choice : Choice
  ending : LineEnd

namespace FromLine

def text (l : FromLine) : List Char :=
  l.margin.text ++ (Keyword.from_.word ++ (l.toModule.text ++ (l.origin.text ++
    (l.toImport.text ++ (Keyword.import_.word ++
      (l.toNames.text ++ (l.choice.text ++ l.ending.text)))))))

/-- Each name may be a module beside the dots. -/
def names (l : FromLine) : List (List Char) :=
  match l.origin, l.choice with
  | .named _ _, _ => [l.origin.text]
  | .dots _, .star => [l.origin.text]
  | .dots _, choice => choice.names.map (l.origin.text ++ ·)

def IsRead (l : FromLine) : Prop :=
  match l.origin with
  | .named _ _ => IsLegible l.origin.text
  | .dots _ => l.choice.IsRead

end FromLine

/-! ## Programs -/

def BeginsWith (k : Keyword) (s : List Char) : Prop :=
  ∃ r, skipMargin s = k.word ++ r ∧ ∀ c ∈ r.head?, inIdentifier c = false

structure OtherLine where
  text : List Char
  oneLine : '\n' ∉ text
  noKeyword : ∀ k : Keyword, ¬ BeginsWith k text

inductive Item where
  | imports (l : ImportLine)
  | from_ (l : FromLine)
  | other (l : OtherLine)

namespace Item

def text : Item → List Char
  | imports l => l.text
  | from_ l => l.text
  | other l => l.text

def names : Item → List (List Char)
  | imports l => l.modules.names
  | from_ l => l.names
  | other _ => []

def IsRead : Item → Prop
  | imports l => l.modules.IsRead
  | from_ l => l.IsRead
  | other _ => True

end Item

structure Program where
  items : List Item

def Program.text (p : Program) : List Char := ['\n'].intercalate (p.items.map Item.text)

def Program.names (p : Program) : List (List Char) := p.items.flatMap Item.names

end ChangeImpact.Imports.Python
