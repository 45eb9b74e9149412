import ChangeImpact.Json.Basic
import ChangeImpact.Decimal.Shortest
import ChangeImpact.Text.Quoted

/-!
# Values shown to a user

A text is shown as it is; any other value as a literal: `None`, `True` and `False`, numbers,
lists in brackets and objects in braces with every text in them quoted. Messages also name the
kind of a value.
-/

namespace ChangeImpact.Json

mutual

def literal : Json → List Char
  | .null => "None".toList
  | .bool true => "True".toList
  | .bool false => "False".toList
  | .int n => (Decimal.ofInt n).toList
  | .real x => (Decimal.ofBinary64 x).toList
  | .text s => (Text.Quoted.quote s).toList
  | .list [] => "[]".toList
  | .list (x :: xs) => '[' :: literal x ++ moreLiterals xs ++ [']']
  | .object [] => ['\x7b', '\x7d']
  | .object ((k, v) :: r) =>
    '\x7b' :: (Text.Quoted.quote k).toList ++ ": ".toList ++ literal v ++ moreEntries r ++
      ['\x7d']

def moreLiterals : List Json → List Char
  | [] => []
  | x :: xs => ", ".toList ++ literal x ++ moreLiterals xs

def moreEntries : Fields → List Char
  | [] => []
  | (k, v) :: r =>
    ", ".toList ++ (Text.Quoted.quote k).toList ++ ": ".toList ++ literal v ++ moreEntries r

end

def shown : Json → LooseText
  | .text s => s
  | v => .ofChars (literal v)

mutual

/-- How deep a recursion goes that shows the value: one step for a list or an object, and one more
for what lies in it. -/
def showDepth : Json → Nat
  | .list xs => 1 + itemsDepth xs
  | .object fields => 1 + fieldsDepth fields
  | _ => 0

def itemsDepth : List Json → Nat
  | [] => 0
  | x :: xs => max (max 1 x.showDepth) (itemsDepth xs)

def fieldsDepth : Fields → Nat
  | [] => 0
  | (_, v) :: r => max (max 1 v.showDepth) (fieldsDepth r)

end

def kindName : Json → String
  | .null => "NoneType"
  | .bool _ => "bool"
  | .int _ => "int"
  | .real _ => "float"
  | .text _ => "str"
  | .list _ => "list"
  | .object _ => "dict"

end ChangeImpact.Json
