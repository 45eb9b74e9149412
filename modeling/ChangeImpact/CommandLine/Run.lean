import ChangeImpact.CommandLine.Command
import ChangeImpact.Console.Control
import ChangeImpact.Console.Show
import ChangeImpact.Report.Fields
import ChangeImpact.Report.Markdown
import ChangeImpact.Report.Plain
import ChangeImpact.Server.Session

/-!
# Running commands

A command runs on a disk, from a folder of it, with git and the standard input at hand, and
leads to an outcome: an exit code, what is written to the two outputs, and the disk after it.
A failure that a user can mend is told on the error output; any other is a crash.
-/

namespace ChangeImpact.CommandLine

open Console (Block MarkupError)

structure Surroundings where
  machine : Machine
  disk : Tree
  here : Path
  git : Git
  input : Text.Utf8.Bytes := []
  tenths : Nat := 0

inductive Crash where
  | failure (e : Failure)
  | markup (e : MarkupError)
  | session (e : Server.Breakdown)
  | digitLimit
  | tooDeep
  | save (e : SaveFault)
  /-- A text with a surrogate in it cannot be put out. -/
  | surrogateInText
  /-- No JSON is put out with a surrogate in it. -/
  | surrogateInJson

structure Outcome where
  code : Nat
  stdout : String := ""
  stderr : String := ""
  crash : Option Crash := none
  disk : Tree

inductive Stop where
  | told (message : String)
  | crash (c : Crash)
  | behindProgress (s : Stop)

structure Done where
  stdout : String
  stderr : String := ""
  crash : Option Crash := none
  disk : Tree

namespace Surroundings

def print (s : Surroundings) (blocks : List Block) : Done :=
  let (stdout, e) := Console.print blocks
  { stdout, crash := e.map .markup, disk := s.disk }

def crashed (s : Surroundings) (c : Crash) : Done :=
  { stdout := "", crash := some c, disk := s.disk }

def echo (s : Surroundings) (text : LooseText) : Done :=
  match text.toString? with
  | some t =>
    { stdout := String.ofList (Console.withoutControls t.toList) ++ "\n", disk := s.disk }
  | none => s.crashed .surrogateInText

def echoJson (s : Surroundings) (v : Json) : Done :=
  if v.isOrdinary then s.echo (Json.write .shown v) else s.crashed .surrogateInJson

def stop (e : Failure) : Stop := if e.isForeseen then .told e.message else .crash (.failure e)

def placeOf (s : Surroundings) (path : String) : Except Stop Path :=
  let p := s.here.child path
  if p.holdsNull then .error (stop (.disk .nullCharacter)) else .ok p.resolve

def root (s : Surroundings) (path : Option String) : Except Stop Path :=
  match path.filter (· != "") with
  | some p => do
    let root ← s.placeOf p
    if let some e := Source.lookFault? s.disk root then throw (stop (.disk e))
    if s.disk.isFolderAt root then pure root else throw (.told ("Path does not exist: " ++ p))
  | none =>
    ((Repository.findRoot s.disk s.here).map (·.getD s.here.resolve)).mapError (stop <| .disk ·)

def settings (s : Surroundings) (root : Path) : Except Stop Settings :=
  (Repository.loadSettings s.machine s.disk root).mapError fun e => stop (.stored e)

def repository (s : Surroundings) (path : Option String) : Except Stop Repository := do
  let root ← s.root path
  pure ⟨s.machine, s.disk, root, ← s.settings root⟩

def pathIn (root : Path) (file : String) : Except Stop String :=
  (root.inRepository file).mapError fun e => .told e.message.visible

def withDepth (s : Settings) (depth : Option Int) : Settings :=
  match depth with
  | some n => { s with impact := { s.impact with maxDepth := n } }
  | none => s

def progressEnd : String := "\n"

/-- What is shown of a report before a number in it has too many digits, and whether one has. -/
def reportBlocks (s : Surroundings) (r : Report) : List Block × Bool :=
  if r.sums.any Template.Layout.isOverlong then ([], true)
  else if r.isOverlong then
    (Console.reportStart r ++ (r.risk.warnings.takeWhile fun w =>
      !Template.Layout.isOverlong w.line).map Console.diffWarning, true)
  else
    let seconds := Decimal.ofNat (s.tenths / 10) ++ "." ++ Decimal.ofNat (s.tenths % 10)
    (Console.report r ++ [Console.success ("Analyzed in " ++ seconds ++ "s")], false)

def showReport (s : Surroundings) (r : Report) : Format → Done
  | .json => s.echoJson r.toJson
  | .markdown => match r.renderFault? s.machine with
    | some .overlong => s.crashed .digitLimit
    | some .tooDeep => s.crashed .tooDeep
    | none => s.echo r.markdown
  | .plain => if r.isOverlong then s.crashed .digitLimit else s.echo r.plain
  | .text =>
    let (blocks, isCut) := s.reportBlocks r
    let d := { s.print blocks with stderr := progressEnd }
    if isCut && d.crash.isNone then { d with crash := some .digitLimit } else d

def analyze (s : Surroundings) (r : Repository) (branch : String) (base : Option String)
    (format : Format) : Except Stop Done :=
  match ((Repository.analyseAround s.machine s.disk s.git s.here r.root branch (base.getD "")
      (some r.settings)).run.run []).1 with
  | .ok report => .ok (s.showReport report format)
  | .error e => .error (if format = .text then .behindProgress (stop e) else stop e)

def deps (s : Surroundings) (file : String) (path : Option String) (depth : Option Int) :
    Except Stop Done := do
  let r ← s.repository path
  let file ← pathIn r.root file
  let b ← (Build.attempt r.machine r.settings.indexer r.disk r.root).mapError (stop <| .disk ·)
  let maxDepth := (withDepth r.settings depth).impact.maxDepth
  let impact ← (b.graph.impactOf maxDepth [file]).mapError (stop <| .depth ·)
  pure (s.print (Console.impact impact))

def tests (s : Surroundings) (files : List String) (path : Option String) :
    Except Stop Done := do
  let r ← s.repository path
  let files ← files.mapM (pathIn r.root)
  let coverage ← (r.findTests files).mapError (stop <| .disk ·)
  pure (s.print (Console.tests coverage))

def clientConfig (folder : Path) : Json :=
  .object [("mcpServers", .object [("impactlens", .object [
    ("command", .text "impactlens"), ("args", .list [.text "serve"]),
    ("cwd", .text folder.text)])])]

def serve (s : Surroundings) (path : Option String) (onlyConfig : Bool) : Except Stop Done := do
  if onlyConfig then
    let folder ← s.placeOf (path.getD ".")
    pure (s.echo (Json.write .stored (clientConfig folder)))
  else
    let r ← s.repository path
    let (written, ending) := ((Server.serve ⟨r, s.git, s.here⟩ s.input).run []).1
    pure
      { stdout := String.ofList (Text.Utf8.decodeLossy written)
        crash := ending.map .session
        disk := s.disk }

def getSetting (s : Surroundings) (settings : Settings) (key : String) : Except Stop Done :=
  if key == "" then .error (.told "Usage: impactlens config get <key>")
  else match settings.get? key with
    | some v => .ok (s.echo (.ofString (key ++ " = ") ++ v.shown))
    | none => .error (.told ("Unknown key: " ++ key))

def valueOf (s : Surroundings) (value : LooseText) : Except Stop Json :=
  match Json.readLoose (.lenient s.machine.nesting) value with
  | .ok v => .ok v
  | .error .malformed => .ok (.text value)
  | .error .digitLimit => .error (.crash .digitLimit)
  | .error .tooDeep => .error (.crash .tooDeep)

def invalidValue (key : String) (issues : List Issue) : Stop :=
  .told ("Invalid value for " ++ key ++ ": " ++ Issue.messages issues)

def setSetting (s : Surroundings) (root : Path) (settings : Settings) (key : String)
    (value : LooseText) : Except Stop Done := do
  let v ← s.valueOf value
  match settings.set key v with
  | .error (.unknownKey _) => throw (.told ("Unknown config key: " ++ key))
  | .error (.invalid _ issues) => throw (invalidValue key issues)
  | .ok settings =>
    let disk ← (Repository.saveSettings s.disk root settings).mapError (.crash <| .save ·)
    let s := { s with disk }
    if s.machine.showing < v.showDepth then pure (s.crashed .tooDeep)
    else match v.shown.toString? with
      | some shown => pure (s.print [Console.success ("Set " ++ key ++ " = " ++ shown)])
      | none => pure (s.crashed .surrogateInText)

def config (s : Surroundings) (action : Action) (key : Option String) (value : Option LooseText)
    (path : Option String) : Except Stop Done := do
  let r ← s.repository path
  match action, key.filter (· != ""), value with
  | .show_, _, _ => pure (s.echoJson r.settings.toJson)
  | .get, key, _ => s.getSetting r.settings (key.getD "")
  | .set, some key, some value => s.setSetting r.root r.settings key value
  | .set, _, _ => throw (.told "Usage: impactlens config set <key> <value>")

end Surroundings

def helpText : String :=
  "Usage: impactlens [--version] [--verbose] analyze|deps|tests|serve|config ..."

namespace Command

def perform (s : Surroundings) : Command → Except Stop Done
  | version => .ok (s.echo (.ofString ("impactlens, version " ++ Server.version)))
  | help => .ok (s.echo helpText)
  | analyze branch base path format depth => do
    let r ← s.repository path
    s.analyze { r with settings := Surroundings.withDepth r.settings depth } branch base format
  | deps file path depth => s.deps file path depth
  | tests files path => s.tests files path
  | serve path onlyConfig => s.serve path onlyConfig
  | config action key value path => s.config action key value path

end Command

def stopped (disk : Tree) : Stop → Outcome
  | .crash c => { code := 1, crash := some c, disk }
  | .told message =>
    let (stderr, e) := Console.print [Console.error message]
    { code := 1, stderr, crash := e.map .markup, disk }
  | .behindProgress s =>
    let o := stopped disk s
    { o with stderr := Surroundings.progressEnd ++ o.stderr }

def finished (d : Done) : Outcome :=
  { code := if d.crash.isSome then 1 else 0, stdout := d.stdout, stderr := d.stderr,
    crash := d.crash, disk := d.disk }

def run (s : Surroundings) (args : List LooseText) : Outcome :=
  match Command.read args with
  | .error e => { code := 2, stderr := "Error: " ++ e.message ++ "\n", disk := s.disk }
  | .ok c => match c.perform s with
    | .ok d => finished d
    | .error e => stopped s.disk e

end ChangeImpact.CommandLine
