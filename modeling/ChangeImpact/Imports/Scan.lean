import ChangeImpact.Text.Split

/-!
# Scanning for finds

A recogniser looks at one place of a text: at the character before it, if there is one, and at
what follows. `findAll` tries every place from left to right and goes on behind each find, so
that finds do not overlap.
-/

namespace ChangeImpact.Imports

open Text

abbrev Recogniser (α : Type) := Option Char → List Char → Option (α × Nat)

variable {α : Type}

/-- Finds with their places; `skip` characters belong to the last find. -/
def findFrom (recognise : Recogniser α) (place skip : Nat) (before : Option Char) :
    List Char → List (Nat × α)
  | [] => []
  | c :: r =>
    match skip with
    | k + 1 => findFrom recognise (place + 1) k (some c) r
    | 0 =>
      match recognise before (c :: r) with
      | none => findFrom recognise (place + 1) 0 (some c) r
      | some (a, size) => (place, a) :: findFrom recognise (place + 1) (size - 1) (some c) r

def findAll (recognise : Recogniser α) (s : List Char) : List (Nat × α) :=
  findFrom recognise 0 0 none s

/-- The texts found, by place; finds at one place keep their order. -/
def inOrder (found : List (Nat × List Char)) : List (List Char) :=
  (found.mergeSort fun a b => a.1 ≤ b.1).map (·.2)

def atWordStart (before : Option Char) : Bool := !before.any isWord

def atLineStart (before : Option Char) : Bool := before.all (· == '\n')

def isMargin (c : Char) : Bool := c == ' ' || c == '\t'

def skipMargin (s : List Char) : List Char := s.dropWhile isMargin

def margin? (s : List Char) : Option (List Char) :=
  if (s.takeWhile isMargin).isEmpty then none else some (s.dropWhile isMargin)

def dottedName? (s : List Char) : Option (List Char × List Char) :=
  let isPart (c : Char) : Bool := isWord c || c == '.'
  if (s.takeWhile isPart).isEmpty then none else some (s.takeWhile isPart, s.dropWhile isPart)

end ChangeImpact.Imports
