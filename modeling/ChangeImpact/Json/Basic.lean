import ChangeImpact.Decimal.Binary64
import ChangeImpact.Text.LooseText

/-!
# JSON values

Values of the JSON data format. Integers are exact and apart from other numbers; texts may hold
surrogates that stand alone; an object keeps its fields in the order in which their names first
appear, each name once.
-/

namespace ChangeImpact

inductive Json where
  | null
  | bool (b : Bool)
  | int (n : Int)
  | real (x : Binary64)
  | text (s : LooseText)
  | list (xs : List Json)
  | object (fields : List (LooseText × Json))

namespace Json

abbrev Fields := List (LooseText × Json)

def put (name : LooseText) (value : Json) : Fields → Fields
  | [] => [(name, value)]
  | (k, v) :: r => if k == name then (k, value) :: r else (k, v) :: put name value r

def Fields.named? (fields : Fields) (name : String) : Option Json :=
  fields.lookup (LooseText.ofString name)

def field? (name : String) : Json → Option Json
  | .object fields => Fields.named? fields name
  | _ => none

def string? : Json → Option String
  | .text s => s.toString?
  | _ => none

def texts (xs : List String) : Json := .list (xs.map fun s : String => .text s)

def looseTexts (xs : List LooseText) : Json := .list (xs.map .text)

mutual

def isOrdinary : Json → Bool
  | .text s => s.toString?.isSome
  | .list xs => areOrdinary xs
  | .object fields => areOrdinaryFields fields
  | _ => true

def areOrdinary : List Json → Bool
  | [] => true
  | x :: xs => x.isOrdinary && areOrdinary xs

def areOrdinaryFields : List (LooseText × Json) → Bool
  | [] => true
  | (k, v) :: r => k.toString?.isSome && v.isOrdinary && areOrdinaryFields r

end

def nat (n : Nat) : Json := .int n

end Json

end ChangeImpact
