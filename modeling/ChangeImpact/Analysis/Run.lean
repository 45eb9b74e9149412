import ChangeImpact.Analysis.Failure
import ChangeImpact.Graph.Build
import ChangeImpact.Report.Basic

/-!
# Analysing a change

From a change set to a report: the import graph of the whole repository, the search from the
changed files, their tests, and the rules held against all of it. Where the change set comes
from git, so do the diff, the log and the top of the repository.
-/

namespace ChangeImpact

namespace Repository

def leadsOutside (path : String) : Bool :=
  path == ".." || path.startsWith "/" || path.startsWith "../"

def folderAt (disk : Tree) (p : Path) (missing : Path → Failure) : Except Failure Path :=
  let place := p.resolve
  if p.holdsNull then .error (.disk .nullCharacter)
  else match Source.lookFault? disk place with
    | some e => .error (.disk e)
    | none => if disk.isFolderAt place then .ok place else .error (missing place)

def buildStats (b : Build) : Json.Fields :=
  [("files_found", .nat b.stats.filesFound), ("files_scanned", .nat b.stats.filesScanned),
    ("files_skipped", .nat b.stats.filesSkipped), ("edges", .nat b.stats.edges),
    ("targets", .nat b.stats.targets)]

def graphFor (r : Repository) (changes : ChangeSet) :
    Except DiskFault (ImportGraph × Json.Fields) :=
  if changes.isEmpty then .ok (.empty, [])
  else (Build.attempt r.machine r.settings.indexer r.disk r.root).map fun b => (b.graph, buildStats b)

def analyse (r : Repository) (changes : ChangeSet) (diff : Option String) :
    Except Failure Report := do
  let r := { r with root := ← folderAt r.disk r.root .unreachable }
  match changes.paths.find? leadsOutside with
  | some path => throw (.outsidePath path)
  | none => pure ()
  let (graph, stats) ← (r.graphFor changes).mapError .disk
  let impact ← (graph.impactOf r.settings.impact.maxDepth changes.paths).mapError .depth
  let coverage ← (r.findTests changes.paths).mapError .disk
  let table ← r.rules.mapError .stored
  let subject : Risk.Subject := { changes, impact, coverage := some coverage }
  let risk ← (Risk.assess table subject (if r.settings.risk.scanDiff then diff else none)).mapError
    .assess
  pure
    { root := r.root.text
      summary := .of changes
      changes, impact, coverage, risk
      indexStats := stats }

/-- The contents, up to `limit` bytes each, of the first files of a list that are there, at most
`room` of them. No file is looked up once there is no room. -/
def readContents (r : Repository) (limit : Int) :
    Nat → List String → Except DiskFault (List (String × String))
  | 0, _ => .ok []
  | _ + 1, [] => .ok []
  | room + 1, path :: rest => do
    if let some e := r.lookFault? path then throw e
    match Source.read? r.disk r.root limit path with
    | none => readContents r limit (room + 1) rest
    | some text =>
      if let some e := Source.sizeFault? r.machine limit then throw e
      pure ((path, text) :: (← readContents r limit room rest))

abbrev Inquiry := ExceptT Failure Asking

def asked {α : Type} (answer : Asking (Except CallFault α)) : Inquiry α := do
  match ← answer with
  | .ok a => pure a
  | .error e => throw (.call e)

def topAround (disk : Tree) (git : Git) (here start : Path) : Inquiry Path := do
  let start ← folderAt disk start .notFolder
  let top ← asked (git.topLevel here start)
  if top.holdsNull then throw (.disk .nullCharacter) else pure top.resolve

def changesBetween (git : Git) (base head : LooseText) : Inquiry ChangeSet := do
  match ← git.changedFiles base head with
  | .ok changes => pure changes
  | .error (.asked (.git e)) => throw (.git e)
  | .error (.asked (.call e)) => throw (.call e)
  | .error (.number e) => throw (.number e)

def settingsOr (m : Machine) (disk : Tree) (root : Path) (given : Option Settings) :
    Inquiry Settings :=
  match given with
  | some s => pure s
  | none => match loadSettings m disk root with
    | .ok s => pure s
    | .error e => throw (.stored e)

def around (m : Machine) (disk : Tree) (git : Git) (here root : Path)
    (given : Option Settings) : Inquiry Repository := do
  let root ← folderAt disk root .unreachable
  let top ← topAround disk git here root
  let settings ← settingsOr m disk top given
  pure ⟨m, disk, top, settings⟩

def analyseBranch (r : Repository) (git : Git) (branch base : LooseText) : Inquiry Report := do
  let limits := r.settings.diff
  let base := if base.isEmpty then limits.defaultBase else base
  let changes ← changesBetween git base branch
  let diff ← asked (git.diffText base branch limits.maxDiffBytes)
  let report ← r.analyse changes (some diff)
  let log ← asked (git.commitMessages base branch limits.maxCommitMessages)
  let contents ← (r.readContents limits.maxContentBytes limits.maxContentFiles.toNat
    changes.paths).mapError Failure.disk
  pure { report with branch, base, commitMessages := log, fileContents := contents }

def analyseAround (m : Machine) (disk : Tree) (git : Git) (here root : Path)
    (branch base : LooseText) (given : Option Settings) : Inquiry Report := do
  (← around m disk git here root given).analyseBranch git branch base

end Repository

end ChangeImpact
