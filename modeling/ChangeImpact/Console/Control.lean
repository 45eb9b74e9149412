/-!
# Control sequences

A terminal takes some sequences of characters as orders: an escape character and a bracket,
parameters, characters in between, and one character that ends the sequence. A text that is put
out without colours goes without them.
-/

namespace ChangeImpact.Console

def isParameter (c : Char) : Bool := '0' ≤ c && c ≤ '?'

def isIntermediate (c : Char) : Bool := ' ' ≤ c && c ≤ '/'

def isFinal (c : Char) : Bool := '@' ≤ c && c ≤ '~'

def controlSize : List Char → Nat
  | '\x1b' :: '[' :: r =>
    let parameters := r.takeWhile isParameter
    let between := (r.drop parameters.length).takeWhile isIntermediate
    match (r.drop parameters.length).drop between.length with
    | c :: _ => if isFinal c then parameters.length + between.length + 3 else 0
    | [] => 0
  | _ => 0

/-- The text without control sequences; `skip` characters belong to one already found. -/
def withoutControlsFrom (skip : Nat) : List Char → List Char
  | [] => []
  | c :: r =>
    match skip, controlSize (c :: r) with
    | k + 1, _ => withoutControlsFrom k r
    | 0, 0 => c :: withoutControlsFrom 0 r
    | 0, n + 1 => withoutControlsFrom n r

def withoutControls : List Char → List Char := withoutControlsFrom 0

end ChangeImpact.Console
