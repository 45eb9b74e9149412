import ChangeImpact.Json.Shown
import ChangeImpact.Json.Spelling
import ChangeImpact.Text.LowerCase

/-!
# Checking JSON against a shape

A check takes a value to the data it stands for, or to every fault it has, each with the place
where it lies and the value that is at fault. Checks of several fields gather the faults of all
of them, in the order of the fields. Numbers and truth values may also be given as texts that
spell them.
-/

namespace ChangeImpact

inductive Place where
  | field (name : String)
  | item (index : Nat)
  deriving Repr, DecidableEq

inductive Fault where
  | missing
  | notObject
  | notList
  | notTuple
  | notTable
  | notText
  | notInteger
  | integerSpelling
  | integerSize
  | fractional
  | notFinite
  | notTruthValue
  | truthSpelling
  | notAmong
  | tooSmall
  | belowLeast
  | loneSurrogate
  | badJson
  deriving Repr, DecidableEq

def Fault.code : Fault → String
  | .missing => "missing"
  | .notObject => "model_type"
  | .notList => "list_type"
  | .notTuple => "tuple_type"
  | .notTable => "dict_type"
  | .notText => "string_type"
  | .notInteger => "int_type"
  | .integerSpelling => "int_parsing"
  | .integerSize => "int_parsing_size"
  | .fractional => "int_from_float"
  | .notFinite => "finite_number"
  | .notTruthValue => "bool_type"
  | .truthSpelling => "bool_parsing"
  | .notAmong => "enum"
  | .tooSmall => "greater_than"
  | .belowLeast => "greater_than_equal"
  | .loneSurrogate => "string_unicode"
  | .badJson => "json_invalid"

structure Issue where
  place : List Place
  fault : Fault
  given : String
  kind : String
  deriving Repr, DecidableEq

namespace Issue

def wholeLimit : Nat := 50

def within (room : Nat) : List Char → List Char
  | [] => []
  | c :: r => if c.utf8Size ≤ room then c :: within (room - c.utf8Size) r else []

def abridged (s : String) : String :=
  if s.utf8ByteSize ≤ wholeLimit then s
  else
    String.ofList (within (wholeLimit / 2) s.toList ++ "...".toList ++
      (within (wholeLimit / 2 - 1) s.toList.reverse).reverse)

def placeText (place : List Place) : String :=
  ".".intercalate (place.map fun p => match p with
    | .field name => name
    | .item i => Decimal.ofNat i)

def message (i : Issue) : String :=
  placeText i.place ++ " [type=" ++ i.fault.code ++ ", input_value=" ++ abridged i.given ++
    ", input_type=" ++ i.kind ++ "]"

def messages (issues : List Issue) : String := "\n".intercalate (issues.map message)

end Issue

inductive Checked (α : Type) where
  | good (a : α)
  | bad (issues : List Issue)

namespace Checked

variable {α β : Type}

def map (f : α → β) : Checked α → Checked β
  | good a => good (f a)
  | bad is => bad is

def both (f : Checked (α → β)) (x : Checked α) : Checked β :=
  match f, x with
  | good g, good a => good (g a)
  | good _, bad js => bad js
  | bad is, good _ => bad is
  | bad is, bad js => bad (is ++ js)

instance : Applicative Checked where
  pure := good
  map f x := map f x
  seq f x := both f (x ())

def fail (fault : Fault) (v : Json) : Checked α :=
  bad [⟨[], fault, String.ofList v.literal, v.kindName⟩]

def under (p : Place) : Checked α → Checked α
  | good a => good a
  | bad is => bad (is.map fun i => { i with place := p :: i.place })

def ensure (c : α → Bool) (fault : Fault) (v : Json) : Checked α → Checked α
  | good a => if c a then good a else fail fault v
  | bad is => bad is

def toExcept : Checked α → Except (List Issue) α
  | good a => .ok a
  | bad is => .error is

end Checked

namespace Json

variable {α : Type}

abbrev Check (α : Type) := Json → Checked α

def checkLooseText : Check LooseText
  | .text s => pure s
  | v => .fail .notText v

def checkText : Check String
  | .text s => match s.toString? with
    | some s => pure s
    | none => .fail .loneSurrogate (.text s)
  | v => .fail .notText v

/-- A floating-point number stands for an integer only between the limits of 64 bits. -/
def isInWord (n : Int) : Bool := -Int.pow 2 63 < n && n < Int.pow 2 63

def checkReal (x : Binary64) : Checked Int :=
  match x with
  | .finite .. => match x.toInt? with
    | some n => if isInWord n then pure n else .fail .integerSize (.real x)
    | none => .fail .fractional (.real x)
  | _ => .fail .notFinite (.real x)

def checkInt : Check Int
  | .int n => pure n
  | .bool b => pure (if b then 1 else 0)
  | .real x => checkReal x
  | .text s => match s.toString? with
    | none => .fail .loneSurrogate (.text s)
    | some t => match Spelling.integer t.toList with
      | .ok n => pure n
      | .error .malformed => .fail .integerSpelling (.text s)
      | .error .tooLong => .fail .integerSize (.text s)
  | v => .fail .notInteger v

def trueSpellings : List String := ["1", "t", "true", "y", "yes", "on"]
def falseSpellings : List String := ["0", "f", "false", "n", "no", "off"]

def truthOf (n : Int) (v : Json) : Checked Bool :=
  if n = 1 then pure true else if n = 0 then pure false else .fail .truthSpelling v

def checkBool : Check Bool
  | .bool b => pure b
  | .int n =>
    if -Int.pow 2 63 ≤ n && n < Int.pow 2 63 then truthOf n (.int n)
    else .fail .notTruthValue (.int n)
  | .real x => match x.toInt? with
    | some n => if isInWord n then truthOf n (.real x) else .fail .notTruthValue (.real x)
    | none => .fail .notTruthValue (.real x)
  | .text s => match s.toString? with
    | none => .fail .loneSurrogate (.text s)
    | some t =>
      if trueSpellings.contains (Text.lower t) then pure true
      else if falseSpellings.contains (Text.lower t) then pure false
      else .fail .truthSpelling (.text s)
  | v => .fail .notTruthValue v

def checkOptional (check : Check α) : Check (Option α)
  | .null => pure none
  | v => (check v).map some

def checkNamed (named? : String → Option α) : Check α := fun v =>
  match v.string?.bind named? with
  | some a => pure a
  | none => .fail .notAmong v

def checkItems (check : Check α) (index : Nat) : List Json → Checked (List α)
  | [] => pure []
  | v :: r =>
    List.cons <$> (check v).under (.item index) <*> checkItems check (index + 1) r

def checkList (check : Check α) : Check (List α)
  | .list xs => checkItems check 0 xs
  | v => .fail .notList v

def checkTuple (check : Check α) : Check (List α)
  | .list xs => checkItems check 0 xs
  | v => .fail .notTuple v

def checkEntries (check : Check α) : Fields → Checked (List (String × α))
  | [] => pure []
  | (k, v) :: r =>
    (fun a rest => (k.visible, a) :: rest) <$> (check v).under (.field k.visible)
      <*> checkEntries check r

def checkTable (check : Check α) : Check (List (String × α))
  | .object fields => checkEntries check fields
  | v => .fail .notTable v

def checkObject (check : Fields → Checked α) : Check α
  | .object fields => check fields
  | v => .fail .notObject v

def required (fields : Fields) (name : String) (check : Check α) : Checked α :=
  match Fields.named? fields name with
  | some v => (check v).under (.field name)
  | none => Checked.under (.field name) (.fail .missing (.object fields))

def optional (fields : Fields) (name : String) (absent : α) (check : Check α) : Checked α :=
  match Fields.named? fields name with
  | some v => (check v).under (.field name)
  | none => pure absent

end Json

end ChangeImpact
