import ChangeImpact.Evidence.Coverage
import ChangeImpact.Graph.Impact
import ChangeImpact.Risk.Warning
import ChangeImpact.Risk.Rules
import ChangeImpact.Template.Render

/-!
# Assessing a change

The rules of a table held against a change: which of them fire, the score and the level that
they lead to, the findings that they make, the areas that they touch, and the files that are
most worth a test.
-/

namespace ChangeImpact.Risk

open Evidence (Coverage)
open Template (Value Values)

structure Assessment where
  level : Level := .low
  score : Int := 0
  signals : List String := []
  areas : List String := []
  findings : List (Category × List String) := []
  warnings : List Warning := []
  criticalFiles : List String := []
  rulesVersion : String := ""
  deriving Repr, DecidableEq

def Assessment.findingsUnder (a : Assessment) (c : Category) : List String :=
  (a.findings.lookup c).getD []

def Assessment.hasFindings (a : Assessment) : Bool := a.findings.any (!·.2.isEmpty)

inductive AssessError where
  | placeholder (cause : String) (template : String)
  | template (e : Template.FillError)
  | textMetric (metric : String)
  | diff (e : Diff.DiffError)
  deriving Repr, DecidableEq

def AssessError.message : AssessError → String
  | .placeholder cause text =>
    "Unknown placeholder " ++ cause ++ " in finding template: " ++ Text.Quoted.quote text
  | .template e => e.message
  | .textMetric _ => "'<=' not supported between instances of 'str' and 'int'"
  | .diff (.number e) => e.message

def abridged (names : List String) (limit : Int) : String :=
  let names := names.eraseDups
  let shown := ", ".intercalate (Text.firstItems limit names)
  if names.isEmpty then ""
  else if limit < names.length then
    shown ++ " (+" ++ Decimal.ofInt (names.length - limit) ++ " more)"
  else shown

structure Subject where
  changes : ChangeSet
  impact : Impact := { changed := changes.paths }
  coverage : Option Coverage := none
  nameLimit : Int := 3

namespace Subject

def abridged (s : Subject) (names : List String) : String := Risk.abridged names s.nameLimit

def consumers (s : Subject) (paths : List String) : List String :=
  paths.flatMap s.impact.directOf

def fillIn (values : Values) (template : String) : Except AssessError String :=
  match Template.fill values template with
  | .ok s => .ok s
  | .error e =>
    if e.isAbsence then .error (.placeholder e.message template) else .error (.template e)

def consumersMark : List Char := "{consumers}".toList

/-- The text that a finding is made from: the fallback where the message speaks of consumers
and there are none, and nothing where there is no fallback. -/
def textOf? (t : FindingTemplate) (hasConsumers : Bool) : Option String :=
  if Text.occursIn consumersMark t.message.toList && !hasConsumers then t.fallback
  else some t.message

def finding (t : FindingTemplate) (values : Values) (hasConsumers : Bool) :
    Except AssessError (List String) :=
  match textOf? t hasConsumers with
  | none => .ok []
  | some template => (fillIn values template).map fun s => if s == "" then [] else [s]

def pathValues (file files : String) (count : Nat) (consumers : String) : Values :=
  [("file", .text file), ("files", .text files), ("count", .number count),
    ("consumers", .text consumers)]

def pathFindings (s : Subject) (t : FindingTemplate) (matched : List String) :
    Except AssessError (List String) :=
  if t.perFile then
    (matched.mapM fun path =>
      let consumers := s.consumers [path]
      finding t (pathValues path path 1 (s.abridged consumers)) (!consumers.isEmpty)).map
        List.flatten
  else
    let consumers := s.consumers matched
    finding t
      (pathValues (matched.headD "") (s.abridged matched) matched.length (s.abridged consumers))
      (!consumers.isEmpty)

def metrics (s : Subject) : Values :=
  let added := s.changes.linesAdded
  let deleted := s.changes.linesDeleted
  let shrinking := (s.changes.files.filter fun f => f.additions < f.deletions).map (·.path)
  let coverage := if s.changes.isEmpty then none else s.coverage
  [("files_changed", .number s.changes.paths.length),
    ("lines_added", .number added),
    ("lines_deleted", .number deleted),
    ("total_lines", .number (added + deleted)),
    ("net_deletions", .number (if 2 * added < deleted then deleted else 0)),
    ("affected_files", .number (max 0 ((s.impact.totalAffected : Int) - s.impact.changed.length))),
    ("affected", .number s.impact.totalAffected),
    ("uncovered_percent", .number (match coverage with
      | some c => 100 - c.coveragePercent
      | none => 0)),
    ("coverage", .number (match s.coverage with
      | some c => c.coveragePercent
      | none => 100)),
    ("missing", .text (s.abridged (match coverage with
      | some c => c.missingTests
      | none => []))),
    ("consumers", .text (s.abridged (s.consumers shrinking)))]

end Subject

structure Fired where
  name : String
  weight : Int
  area : Option String
  findings : List (Category × List String)
  critical : List String

def gather (templates : List FindingTemplate)
    (find : FindingTemplate → Except AssessError (List String)) :
    Except AssessError (List (Category × List String)) :=
  templates.mapM fun t => (find t).map fun found => (t.category, found)

def firePathRule (s : Subject) (r : PathRule) : Except AssessError (Option Fired) :=
  let matched := s.changes.paths.filter r.fires
  if matched.isEmpty then .ok none
  else
    (gather r.findings (s.pathFindings · matched)).map fun findings =>
      some
        { name := r.name, weight := r.weight, area := some r.area, findings
          critical := if r.critical then matched.flatMap fun p => p :: s.impact.directOf p else [] }

def fireThresholdRule (metrics : Values) (r : ThresholdRule) : Except AssessError (Option Fired) :=
  match metrics.lookup r.metric with
  | none => .ok none
  | some (.text _) => .error (.textMetric r.metric)
  | some (.number value) =>
    if value ≤ r.threshold then .ok none
    else
      let values := metrics ++ [("value", .number value), ("threshold", .number r.threshold)]
      let hasConsumers := metrics.lookup "consumers" != some (.text "")
      (gather r.findings (Subject.finding · values hasConsumers)).map fun findings =>
        some
          { name := r.name, weight := r.weight
            area := r.area.filter (· != ""), findings, critical := [] }

def firedRules (s : Subject) (t : RuleTable) : Except AssessError (List Fired) := do
  let byPath ← t.pathRules.mapM (firePathRule s)
  let byThreshold ← t.thresholdRules.mapM (fireThresholdRule s.metrics)
  pure ((byPath ++ byThreshold).filterMap id)

def findingsIn (c : Category) (fired : List Fired) : List String :=
  (fired.flatMap (·.findings)).flatMap fun (category, found) => if category = c then found else []

def assess (t : RuleTable) (s : Subject) (diff : Option String) :
    Except AssessError Assessment := do
  let fired ← firedRules s t
  let warnings ← match diff with
    | some text => if text == "" then pure [] else (Warning.scan text).mapError .diff
    | none => pure []
  let score := (fired.map (·.weight)).foldr (· + ·) 0
  pure
    { level := t.levelAt score
      score
      signals := fired.map (·.name)
      areas := (fired.filterMap (·.area)).eraseDups
      findings := (Category.all.map fun c => (c, findingsIn c fired)).filter (!·.2.isEmpty)
      warnings
      criticalFiles := (fired.flatMap (·.critical)).eraseDups
      rulesVersion := t.version }

end ChangeImpact.Risk
