import ChangeImpact.Text.Character

/-!
# Cutting text

Fields between separators, words between blanks, lines between line ends, and what is left of
a text without its margins.
-/

namespace ChangeImpact.Text

/-- The stretches between the items that satisfy `p`; always one more than there are such
items. -/
def splitWhere {α : Type} (p : α → Bool) : List α → List (List α)
  | [] => [[]]
  | c :: r =>
    if p c then [] :: splitWhere p r
    else match splitWhere p r with
      | [] => [[c]]
      | f :: fs => (c :: f) :: fs

def splitOn (sep : Char) : List Char → List (List Char) := splitWhere (· == sep)

def words (s : List Char) : List (List Char) :=
  (splitWhere isBlank s).filter (!·.isEmpty)

/-- The lines of a text without their ends; a carriage return and a line feed after it are
one end, and a text that ends with an end has no further line. -/
def lines : List Char → List (List Char)
  | [] => []
  | '\r' :: '\n' :: r => [] :: lines r
  | c :: r =>
    if isLineEnd c then [] :: lines r
    else match lines r with
      | [] => [[c]]
      | l :: ls => (c :: l) :: ls

def trimRight (p : Char → Bool) (s : List Char) : List Char :=
  (s.reverse.dropWhile p).reverse

def trim (p : Char → Bool) (s : List Char) : List Char :=
  trimRight p (s.dropWhile p)

def strip : List Char → List Char := trim isBlank

def occursIn (needle : List Char) : List Char → Bool
  | [] => needle.isEmpty
  | c :: r => needle.isPrefixOf (c :: r) || occursIn needle r

def after? : List Char → List Char → Option (List Char)
  | [], s => some s
  | p :: ps, c :: r => if p == c then after? ps r else none
  | _ :: _, [] => none

def cut? (sep : Char) : List Char → Option (List Char × List Char)
  | [] => none
  | c :: r => if c == sep then some ([], r) else (cut? sep r).map fun (a, b) => (c :: a, b)

def fields (sep : Char) (s : String) : List String :=
  (splitOn sep s.toList).map String.ofList

/-- The first `n` items; a negative number counts from the end. -/
def firstItems {α : Type} (n : Int) (xs : List α) : List α :=
  if 0 ≤ n then xs.take n.toNat else xs.take (xs.length - (-n).toNat)

end ChangeImpact.Text
