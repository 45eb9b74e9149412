import ChangeImpact.Analysis.Run
import ChangeImpact.Json.Shown
import ChangeImpact.Path.Loose
import ChangeImpact.Report.Markdown

/-!
# Tools

What clients can ask for: the analysis of a branch, and the dependents of a file. Arguments are
JSON as the client sends it, so each tool says what it does with a value of any kind. A fault
of the arguments or of the repository is told to the client; of failures inside an analysis a
few are not.
-/

namespace ChangeImpact.Server

structure Host where
  repository : Repository
  git : Git
  here : Path

inductive ArgumentFault where
  | missing (name : String)
  | notAnObject (value : Json)
  | notAPath (value : Json)
  | notANumber (value : Json)
  | spelling (e : Text.IntegerError)
  | undefined
  | outside (e : OutsideRoot)

def ArgumentFault.message : ArgumentFault → LooseText
  | missing name => Text.Quoted.quote name
  | notAnObject (.list _) => "list indices must be integers or slices, not str"
  | notAnObject (.text _) => "string indices must be integers, not 'str'"
  | notAnObject v => .ofString ("'" ++ v.kindName ++ "' object is not subscriptable")
  | notAPath v => .ofString ("expected str, bytes or os.PathLike object, not " ++ v.kindName)
  | notANumber v =>
    .ofString ("int() argument must be a string, a bytes-like object or a real number, not '" ++
      v.kindName ++ "'")
  | spelling e => e.message
  | undefined => "cannot convert float NaN to integer"
  | outside e => e.message

/-- Why a tool gives no text. A client is not told of some failures of the analysis, of a number
without end, and of a value or a tree that is nested too deep. -/
inductive ToolFault where
  | argument (e : ArgumentFault)
  | analysis (e : Failure)
  | overlong
  | endless
  | tooDeep

def ToolFault.message : ToolFault → LooseText
  | argument e => e.message
  | analysis e => e.message
  | overlong => Template.LayoutError.overlong.message
  | endless => "cannot convert float infinity to integer"
  | tooDeep => "maximum recursion depth exceeded"

def ToolFault.isTold : ToolFault → Bool
  | argument _ => true
  | analysis e => !e.isUntold
  | overlong => true
  | endless => false
  | tooDeep => false

def ToolFault.ofRender : Report.RenderFault → ToolFault
  | .overlong => overlong
  | .tooDeep => tooDeep

abbrev ToolWork := ExceptT ToolFault Asking

def argument (arguments : Json) (name : String) : Except ArgumentFault Json :=
  match arguments with
  | .object fields => match Json.Fields.named? fields name with
    | some v => .ok v
    | none => .error (.missing name)
  | v => .error (.notAnObject v)

def levels (v : Json) : Except ToolFault Int :=
  match v with
  | .int n => .ok n
  | .bool b => .ok (if b then 1 else 0)
  | .real x => match x with
    | .finite .. => .ok (x.truncate?.getD 0)
    | .infinite _ => .error .endless
    | .notANumber => .error (.argument .undefined)
  | .text s => (Text.readInteger s).mapError fun e => .argument (.spelling e)
  | v => .error (.argument (.notANumber v))

def isFilled : Json → Bool
  | .null => false
  | .bool b => b
  | .int n => n != 0
  | .real x => match x with
    | .finite _ m _ => m != 0
    | _ => true
  | .text s => !s.isEmpty
  | .list xs => !xs.isEmpty
  | .object fields => !fields.isEmpty

def shownIfSaid (v : Json) : LooseText := if isFilled v then v.shown else ""

def inquire {α : Type} (work : Repository.Inquiry α) : ToolWork α := work.adapt .analysis

def revisions (m : Machine) (branch base : Json) : Except ToolFault (LooseText × LooseText) :=
  if m.showing < max branch.showDepth base.showDepth then .error .tooDeep
  else .ok (branch.shown, shownIfSaid base)

def rendered (m : Machine) (r : Report) : Except ToolFault LooseText :=
  match r.renderFault? m with
  | some e => .error (.ofRender e)
  | none => .ok r.markdown

/-- The report on a branch. A branch that says nothing is asked for as it is shown, and left out
of the title. -/
def branchText (git : Git) (r : Repository) (branch base : Json) : ToolWork LooseText := do
  let (head, base) ← revisions r.machine branch base
  let report ← inquire (r.analyseBranch git head base)
  rendered r.machine { report with branch := shownIfSaid branch }

def analysisText (host : Host) (arguments : Json) : ToolWork LooseText := do
  let branch ← (argument arguments "branch").mapError ToolFault.argument
  let r := host.repository
  let top ← inquire (Repository.around r.machine r.disk host.git host.here r.root (some r.settings))
  branchText host.git top branch ((arguments.field? "base").getD .null)

def dependentsLines (path : String) (impact : Impact) : List String :=
  ["Dependents of '" ++ path ++ "':"] ++
    (impact.directOf path).map (fun d => "  " ++ d ++ " (direct)") ++
    (impact.indirectOf path).map fun d =>
      "  " ++ d ++ " (depth " ++ Decimal.ofInt (impact.depthOf d) ++ ")"

def pathArgument (root : Path) (arguments : Json) : Except ToolFault LooseText := do
  match ← (argument arguments "path").mapError .argument with
  | .text s => (root.looseInRepository s).mapError fun e => .argument (.outside e)
  | v => throw (.argument (.notAPath v))

def depthArgument (absent : Int) (arguments : Json) : Except ToolFault Int :=
  match arguments.field? "max_depth" with
  | some v => levels v
  | none => .ok absent

def dependentsOf (r : Repository) (path : LooseText) (depth : Int) :
    Except ToolFault LooseText := do
  let built ← (Build.attempt r.machine r.settings.indexer r.disk r.root).mapError fun e => .analysis (.disk e)
  let file := path.toString?
  let impact ← (built.graph.impactOf depth file.toList).mapError fun e => .analysis (.depth e)
  match file.filter fun p => !(impact.directOf p).isEmpty with
  | none => pure (.ofString "No files import '" ++ path ++ .ofString "'")
  | some p => pure ("\n".intercalate (dependentsLines p impact))

def dependentsText (host : Host) (arguments : Json) : Except ToolFault LooseText := do
  let r := host.repository
  let path ← pathArgument r.root arguments
  let depth ← depthArgument r.settings.impact.maxDepth arguments
  dependentsOf r path depth

abbrev Tool := Host → Json → ToolWork LooseText

def tool? (name : String) : Option Tool :=
  if name == "analyze_pr" then some analysisText
  else if name == "dependents_of" then some fun host v => dependentsText host v
  else none

def property (kind description : String) (more : Json.Fields) : Json :=
  .object (("type", .text kind) :: ("description", .text description) :: more)

def listing (name description : String) (properties : Json.Fields)
    (required : List String) : Json :=
  .object [
    ("name", .text name),
    ("description", .text description),
    ("inputSchema", .object [
      ("type", .text "object"),
      ("properties", .object properties),
      ("required", Json.texts required)])]

def listings : Json :=
  .list [
    listing "analyze_pr"
      ("Analyze the files changed on a branch against a base branch. Returns risk level, " ++
        "findings, affected files and related tests as markdown.")
      [("branch", property "string" "Branch (or any git revision) to analyze" []),
        ("base", property "string" "Base branch to compare against (default: main)" [])]
      ["branch"],
    listing "dependents_of" "List the files that import a file, directly and transitively."
      [("path", property "string" "Repository-relative path of the file" []),
        ("max_depth", property "integer" "Max indirect depth (default: 2)" [("default", .int 2)])]
      ["path"]]

end ChangeImpact.Server
