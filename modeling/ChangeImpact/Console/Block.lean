import ChangeImpact.Console.Markup
import ChangeImpact.Text.CellWidth

/-!
# Blocks

What is printed to a terminal of a fixed width: lines of text, panels, tables and trees, all of
them given as marked-up text. A block is printed whole or, if its markup is wrong, not at all.
-/

namespace ChangeImpact.Console

def screenWidth : Nat := 1000

inductive Side where
  | left
  | center
  | right
  deriving Repr, DecidableEq

structure Column where
  header : String
  side : Side := .left
  deriving Repr, DecidableEq

inductive Block where
  | text (s : String)
  | blank
  | panel (title : Option String) (body : String) (above beside : Nat)
  | table (title : String) (columns : List Column) (rows : List (List String))
  | tree (root : String) (branches : List String)
  deriving Repr, DecidableEq

abbrev Line := List Char

def tabStop : Nat := 8

/-- Tabs become blanks up to the next stop. `place` cells of the line come before, and `part` is
what stands behind the last tab, read backwards. -/
def expandFrom (place : Nat) (part : Line) : Line → Line
  | [] => part.reverse
  | c :: r =>
    if c == '\t' then
      let part := (' ' :: part).reverse
      let place := place + Text.width part
      let missing := (tabStop - place % tabStop) % tabStop
      part ++ List.replicate missing ' ' ++ expandFrom (place + missing) [] r
    else expandFrom place (c :: part) r

def expandTabs (line : Line) : Line := expandFrom 0 [] line

def linesOf (s : String) : Except MarkupError (List Line) :=
  (plainText s).map fun cs => (Text.splitOn '\n' cs).map expandTabs

def blanks (n : Nat) : Line := List.replicate n ' '

def fill (width : Nat) (line : Line) : Line := line ++ blanks (width - Text.width line)

/-- The line on one side of a column. A joiner at its end takes in the blank behind it, which is
made up for. -/
def place (side : Side) (width : Nat) (line : Line) : Line :=
  match side with
  | .left => fill width (fill width line)
  | .right =>
    let line := Text.trimRight Text.isBlank line
    fill width (blanks (width - Text.width line) ++ line)
  | .center =>
    let line := Text.trimRight Text.isBlank line
    fill width (fill width (blanks ((width - Text.width line) / 2) ++ line))

def rule (n : Nat) : Line := List.replicate n '─'

def panelTop (title : Option Line) : Line :=
  match title with
  | none => '╭' :: rule (screenWidth - 2) ++ ['╮']
  | some t =>
    let t := ' ' :: t ++ [' ']
    let free := screenWidth - 4 - Text.width t
    "╭─".toList ++ rule (free / 2) ++ t ++ rule (free - free / 2) ++ "─╮".toList

def panelLines (title : Option Line) (body : List Line) (above beside : Nat) : List Line :=
  let inner := screenWidth - 2 - 2 * beside
  let bare := List.replicate above (blanks inner)
  panelTop title ::
    (bare ++ body.map (fill inner) ++ bare).map
      (fun l => '│' :: blanks beside ++ l ++ blanks beside ++ ['│']) ++
    ['╰' :: rule (screenWidth - 2) ++ ['╯']]

structure Stroke where
  first : Char
  between : Char
  last : Char
  along : Char

def Stroke.draw (s : Stroke) (widths : List Nat) : Line :=
  s.first :: [s.between].intercalate (widths.map fun w => List.replicate (w + 2) s.along) ++
    [s.last]

def cellLine (upright : Char) (cells : List Line) : Line :=
  upright :: [upright].intercalate (cells.map fun c => ' ' :: c ++ [' ']) ++ [upright]

def rowLines (upright : Char) (columns : List (Side × Nat)) (cells : List (List Line)) :
    List Line :=
  let height := (cells.map List.length).foldl max 0
  (List.range height).map fun i =>
    cellLine upright ((columns.zip cells).map fun ((side, w), lines) =>
      place side w (lines.getD i []))

def columnWidth (cells : List (List Line)) : Nat :=
  ((cells.flatten).map Text.width).foldl max 0

def columnsOf (n : Nat) (rows : List (List (List Line))) : List (List (List Line)) :=
  (List.range n).map fun i => rows.map (·.getD i [])

def tableLines (title : List Line) (sides : List Side) (header : List (List Line))
    (rows : List (List (List Line))) : List Line :=
  let widths := (columnsOf sides.length (header :: rows)).map columnWidth
  let columns := sides.zip widths
  let total := (widths.map (· + 3)).foldr (· + ·) 1
  title.map (place .center total) ++
    [Stroke.draw ⟨'┏', '┳', '┓', '━'⟩ widths] ++
    rowLines '┃' columns header ++
    [Stroke.draw ⟨'┡', '╇', '┩', '━'⟩ widths] ++
    rows.flatMap (rowLines '│' columns) ++
    [Stroke.draw ⟨'└', '┴', '┘', '─'⟩ widths]

def branchLines (isLast : Bool) : List Line → List Line
  | [] => []
  | first :: more =>
    ((if isLast then "└── " else "├── ").toList ++ first) ::
      more.map ((if isLast then "    " else "│   ").toList ++ ·)

def treeLines (root : List Line) : List (List Line) → List Line
  | [] => root
  | branches =>
    root ++ branches.dropLast.flatMap (branchLines false) ++
      branchLines true (branches.getLast?.getD [])

namespace Block

def titleLine (s : String) : Except MarkupError Line :=
  (plainText s).map fun cs => expandTabs (cs.map fun c => if c == '\n' then ' ' else c)

def lines : Block → Except MarkupError (List Line)
  | .text s => linesOf s
  | .blank => .ok [[]]
  | .panel title body above beside => do
    let title ← title.mapM titleLine
    pure (panelLines title (← linesOf body) above beside)
  | .table title columns rows => do
    pure (tableLines (← linesOf title) (columns.map (·.side))
      (← columns.mapM (linesOf ·.header)) (← rows.mapM (·.mapM linesOf)))
  | .tree root branches => do
    pure (treeLines (← linesOf root) (← branches.mapM linesOf))

def render (b : Block) : Except MarkupError String :=
  b.lines.map fun ls => String.ofList (ls.flatMap (· ++ ['\n']))

end Block

/-- What is printed of blocks in order, up to the first whose markup is wrong. -/
def print : List Block → String × Option MarkupError
  | [] => ("", none)
  | b :: r =>
    match b.render with
    | .error e => ("", some e)
    | .ok s =>
      let (more, e) := print r
      (s ++ more, e)

end ChangeImpact.Console
