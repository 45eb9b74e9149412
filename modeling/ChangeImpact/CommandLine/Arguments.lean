import ChangeImpact.Text.LooseText

/-!
# Arguments

Options and words of a command line. An option has long names, behind two dashes, and short
ones, of one letter behind one dash; its value stands behind an equals sign, in the rest of a
group of short names, or in the next argument, whatever that looks like. Two dashes alone end
the options. Of several values for one option the last counts. Words may hold surrogates, which
stand for bytes that belong to no character.
-/

namespace ChangeImpact.CommandLine

inductive UsageError where
  | unknownOption (name : String)
  | missingValue (name : String)
  | unexpectedValue (name : String)
  | badValue (name value : String)
  | missingArgument (name : String)
  | extraArgument (value : String)
  | missingCommand
  | unknownCommand (name : String)
  deriving Repr, DecidableEq

def UsageError.message : UsageError → String
  | unknownOption name => "No such option: " ++ name
  | missingValue name => "Option " ++ name ++ " requires an argument."
  | unexpectedValue name => "Option " ++ name ++ " does not take a value."
  | badValue name value => "Invalid value for " ++ name ++ ": " ++ value
  | missingArgument name => "Missing argument " ++ name ++ "."
  | extraArgument value => "Got unexpected extra argument " ++ value
  | missingCommand => "Missing command."
  | unknownCommand name => "No such command " ++ name ++ "."

structure OptionKind where
  name : String
  long : List Char
  short : Option Char := none
  takesValue : Bool := true
  deriving Repr, DecidableEq

structure Arguments where
  given : List (String × String) := []
  words : List LooseText := []
  deriving Repr, DecidableEq

namespace Arguments

def value? (a : Arguments) (name : String) : Option String := a.given.reverse.lookup name

def has (a : Arguments) (name : String) : Bool := (a.value? name).isSome

end Arguments

abbrev Reading := List (String × String) × Option String

def readShort (kinds : List OptionKind) : List Char → Except UsageError Reading
  | [] => .ok ([], none)
  | c :: r =>
    match kinds.find? (·.short == some c) with
    | none => .error (.unknownOption (String.ofList ['-', c]))
    | some k =>
      if !k.takesValue then
        (readShort kinds r).map fun (given, awaiting) => ((k.name, "") :: given, awaiting)
      else if r.isEmpty then .ok ([], some k.name)
      else .ok ([(k.name, String.ofList r)], none)

def readOption (kinds : List OptionKind) (arg : List Char) : Except UsageError Reading :=
  let name := arg.takeWhile (· != '=')
  let value := if arg.contains '=' then some (String.ofList (arg.drop (name.length + 1))) else none
  match kinds.find? (·.long == name) with
  | some k =>
    match k.takesValue, value with
    | true, some v => .ok ([(k.name, v)], none)
    | true, none => .ok ([], some k.name)
    | false, some _ => .error (.unexpectedValue (String.ofList name))
    | false, none => .ok ([(k.name, "")], none)
  | none =>
    if arg.take 2 = ['-', '-'] then .error (.unknownOption (String.ofList name))
    else readShort kinds (arg.drop 1)

def isOption (arg : List Char) : Bool := arg.head? == some '-' && 1 < arg.length

/-- Reads arguments while `awaiting` may name an option that has no value yet. Where words do
not mix with options, the first word ends the options. -/
def readFrom (kinds : List OptionKind) (mixed : Bool) (awaiting : Option String) :
    List LooseText → Except UsageError Arguments
  | [] => match awaiting with
    | some name => .error (.missingValue name)
    | none => .ok {}
  | a :: r =>
    match awaiting with
    | some name =>
      (readFrom kinds mixed none r).map fun s => { s with given := (name, a.visible) :: s.given }
    | none =>
      if a.visible == "--" then .ok { words := r }
      else if isOption a.visible.toList then do
        let (given, awaiting) ← readOption kinds a.visible.toList
        let s ← readFrom kinds mixed awaiting r
        pure { s with given := given ++ s.given }
      else if mixed then
        (readFrom kinds mixed none r).map fun s => { s with words := a :: s.words }
      else .ok { words := a :: r }

def read (kinds : List OptionKind) (mixed : Bool) (args : List LooseText) :
    Except UsageError Arguments := readFrom kinds mixed none args

end ChangeImpact.CommandLine
