import ChangeImpact.CommandLine.Arguments
import ChangeImpact.Text.Integer

/-!
# Commands

The commands of the program with their options, as they are given on a command line. Asking for
help or for the version goes before everything that may be wrong with the other arguments.
-/

namespace ChangeImpact.CommandLine

inductive Format where
  | text
  | plain
  | markdown
  | json
  deriving Repr, DecidableEq

namespace Format

def name : Format → String
  | text => "text"
  | plain => "plain"
  | markdown => "markdown"
  | json => "json"

def named? (s : String) : Option Format := [text, plain, markdown, json].find? (·.name == s)

end Format

inductive Action where
  | set
  | get
  | show_
  deriving Repr, DecidableEq

def Action.named? (s : String) : Option Action :=
  [("set", Action.set), ("get", .get), ("show", .show_)].lookup s

inductive Command where
  | version
  | help
  | analyze (branch : String) (base path : Option String) (format : Format) (depth : Option Int)
  | deps (file : String) (path : Option String) (depth : Option Int)
  | tests (files : List String) (path : Option String)
  | serve (path : Option String) (onlyConfig : Bool)
  | config (action : Action) (key : Option String) (value : Option LooseText)
      (path : Option String)
  deriving Repr, DecidableEq

def helpOption : OptionKind := { name := "help", long := "--help".toList, takesValue := false }

def pathOption : OptionKind := { name := "path", long := "--path".toList, short := some 'p' }

def depthOption : OptionKind := { name := "depth", long := "--depth".toList, short := some 'd' }

def generalOptions : List OptionKind :=
  [{ name := "version", long := "--version".toList, takesValue := false },
    { name := "verbose", long := "--verbose".toList, short := some 'v', takesValue := false },
    helpOption]

def analyzeOptions : List OptionKind :=
  [{ name := "base", long := "--base".toList, short := some 'b' }, pathOption,
    { name := "format", long := "--format".toList }, depthOption, helpOption]

def serveOptions : List OptionKind :=
  [pathOption, { name := "generate", long := "--generate-config".toList, takesValue := false },
    helpOption]

def depth (a : Arguments) : Except UsageError (Option Int) :=
  match a.value? "depth" with
  | none => .ok none
  | some s => match Text.readInteger s with
    | .ok n => if 0 ≤ n then .ok (some n) else .error (.badValue "depth" s)
    | .error _ => .error (.badValue "depth" s)

def format (a : Arguments) : Except UsageError Format :=
  match a.value? "format" with
  | none => .ok .text
  | some s => match Format.named? s with
    | some f => .ok f
    | none => .error (.badValue "format" s)

def onlyWord (name : String) : List LooseText → Except UsageError String
  | [] => .error (.missingArgument name)
  | [w] => .ok w.visible
  | _ :: w :: _ => .error (.extraArgument w.visible)

def readAnalyze (a : Arguments) : Except UsageError Command := do
  let branch ← onlyWord "branch" a.words
  pure (.analyze branch (a.value? "base") (a.value? "path") (← format a) (← depth a))

def readDeps (a : Arguments) : Except UsageError Command := do
  let file ← onlyWord "file" a.words
  pure (.deps file (a.value? "path") (← depth a))

def readTests (a : Arguments) : Except UsageError Command :=
  if a.words.isEmpty then .error (.missingArgument "files")
  else .ok (.tests (a.words.map (·.visible)) (a.value? "path"))

def readServe (a : Arguments) : Except UsageError Command :=
  match a.words with
  | [] => .ok (.serve (a.value? "path") (a.has "generate"))
  | w :: _ => .error (.extraArgument w.visible)

def readConfig (a : Arguments) : Except UsageError Command :=
  match a.words with
  | [] => .error (.missingArgument "action")
  | action :: r =>
    match Action.named? action.visible, r.drop 2 with
    | none, _ => .error (.badValue "action" action.visible)
    | some _, w :: _ => .error (.extraArgument w.visible)
    | some act, [] => .ok (.config act (r[0]?.map (·.visible)) r[1]? (a.value? "path"))

def command? (name : String) :
    Option (List OptionKind × (Arguments → Except UsageError Command)) :=
  if name == "analyze" then some (analyzeOptions, readAnalyze)
  else if name == "deps" then some ([pathOption, depthOption, helpOption], readDeps)
  else if name == "tests" then some ([pathOption, helpOption], readTests)
  else if name == "serve" then some (serveOptions, readServe)
  else if name == "config" then some ([pathOption, helpOption], readConfig)
  else none

def eager? (a : Arguments) : Option Command :=
  a.given.findSome? fun (name, _) =>
    if name == "version" then some .version else if name == "help" then some .help else none

def Command.read (args : List LooseText) : Except UsageError Command := do
  let a ← CommandLine.read generalOptions false args
  match eager? a, a.words with
  | some c, _ => pure c
  | none, [] => throw .missingCommand
  | none, name :: rest =>
    match command? name.visible with
    | none => throw (.unknownCommand name.visible)
    | some (options, make) =>
      let a ← CommandLine.read options true rest
      match eager? a with
      | some c => pure c
      | none => make a

end ChangeImpact.CommandLine
