import ChangeImpact.Text.Character
import ChangeImpact.Text.LooseText

/-!
# Quoted literals

A text between quotes, with everything that is not printable spelled by number. Single quotes
are used unless the text holds a single quote and no double one.
-/

namespace ChangeImpact.Text.Quoted

def hex (width n : Nat) : List Char :=
  let ds := Nat.toDigits 16 n
  List.replicate (width - ds.length) '0' ++ ds

def numbered (n : Nat) : List Char :=
  if n < 0x100 then '\\' :: 'x' :: hex 2 n
  else if n < 0x10000 then '\\' :: 'u' :: hex 4 n
  else '\\' :: 'U' :: hex 8 n

def escapeChar (quote : Char) (plain : Char → Bool) (c : Char) : List Char :=
  if c == quote || c == '\\' then ['\\', c]
  else if c == '\n' then ['\\', 'n']
  else if c == '\r' then ['\\', 'r']
  else if c == '\t' then ['\\', 't']
  else if plain c then [c]
  else numbered c.toNat

def escapePoint (quote : Char) (plain : Char → Bool) : CodePoint → List Char
  | .char c => escapeChar quote plain c
  | p => numbered p.toNat

def quoteFor (s : LooseText) : Char :=
  if s.points.contains (.char '\'') && !s.points.contains (.char '"') then '"' else '\''

def quoteWith (plain : Char → Bool) (s : LooseText) : String :=
  let q := quoteFor s
  String.ofList (q :: s.points.flatMap (escapePoint q plain) ++ [q])

def quote : LooseText → String := quoteWith isPrintable

def quoteAscii : LooseText → String :=
  quoteWith fun c => c.toNat < 128 && isPrintable c

end ChangeImpact.Text.Quoted
