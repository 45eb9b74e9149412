import ChangeImpact.Json.Basic
import ChangeImpact.Decimal.Shortest
import ChangeImpact.Text.Quoted

/-!
# Writing JSON

Two choices make a style: whether characters beyond ASCII are written by number, in UTF-16
units, and whether values stand on lines of their own, indented, or on one line. A surrogate that
stands alone is written by number in every style.
-/

namespace ChangeImpact.Json

structure Style where
  ascii : Bool
  indent : Option Nat

def Style.wire : Style := ⟨true, none⟩
def Style.line : Style := ⟨false, none⟩
def Style.stored : Style := ⟨true, some 2⟩
def Style.shown : Style := ⟨false, some 2⟩

def unit (n : Nat) : List Char := '\\' :: 'u' :: Text.Quoted.hex 4 n

def numbered (n : Nat) : List Char :=
  if n < 0x10000 then unit n
  else unit (0xD800 + (n - 0x10000) / 0x400) ++ unit (0xDC00 + (n - 0x10000) % 0x400)

def escape (ascii : Bool) (c : Char) : List Char :=
  let n := c.toNat
  if c == '"' || c == '\\' then ['\\', c]
  else if n == 8 then ['\\', 'b']
  else if n == 9 then ['\\', 't']
  else if n == 10 then ['\\', 'n']
  else if n == 12 then ['\\', 'f']
  else if n == 13 then ['\\', 'r']
  else if n < 32 || (ascii && 127 ≤ n) then numbered n
  else [c]

def escapePoint (ascii : Bool) : CodePoint → List Char
  | .char c => escape ascii c
  | p => numbered p.toNat

def quoted (ascii : Bool) (s : LooseText) : List Char :=
  '"' :: s.points.flatMap (escapePoint ascii) ++ ['"']

def number : Binary64 → List Char
  | .notANumber => "NaN".toList
  | .infinite false => "Infinity".toList
  | .infinite true => "-Infinity".toList
  | x => (Decimal.ofBinary64 x).toList

def newline (style : Style) (depth : Nat) : List Char :=
  match style.indent with
  | some n => '\n' :: List.replicate (n * depth) ' '
  | none => []

def separator (style : Style) (depth : Nat) : List Char :=
  match style.indent with
  | some _ => ',' :: newline style depth
  | none => [',', ' ']

mutual

def chars (style : Style) (depth : Nat) : Json → List Char
  | .null => "null".toList
  | .bool true => "true".toList
  | .bool false => "false".toList
  | .int n => (Decimal.ofInt n).toList
  | .real x => number x
  | .text s => quoted style.ascii s
  | .list [] => ['[', ']']
  | .list (x :: xs) =>
    '[' :: newline style (depth + 1) ++ chars style (depth + 1) x ++
      moreItems style (depth + 1) xs ++ newline style depth ++ [']']
  | .object [] => ['\x7b', '\x7d']
  | .object ((k, v) :: r) =>
    '\x7b' :: newline style (depth + 1) ++ quoted style.ascii k ++ [':', ' '] ++
      chars style (depth + 1) v ++ moreFields style (depth + 1) r ++ newline style depth ++
      ['\x7d']

def moreItems (style : Style) (depth : Nat) : List Json → List Char
  | [] => []
  | x :: xs => separator style depth ++ chars style depth x ++ moreItems style depth xs

def moreFields (style : Style) (depth : Nat) : Fields → List Char
  | [] => []
  | (k, v) :: r =>
    separator style depth ++ quoted style.ascii k ++ [':', ' '] ++ chars style depth v ++
      moreFields style depth r

end

def write (style : Style) (v : Json) : String := String.ofList (chars style 0 v)

end ChangeImpact.Json
