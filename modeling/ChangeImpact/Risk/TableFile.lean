import ChangeImpact.Json.Reader
import ChangeImpact.Json.Writer
import ChangeImpact.Risk.Rules

/-!
# Rule tables as JSON

Reading and writing a rule table. Every fault of a table is reported with its place.
-/

namespace ChangeImpact.Risk

open Json

def checkFinding : Check FindingTemplate := checkObject fun fs =>
  FindingTemplate.mk <$> required fs "category" (checkNamed Category.named?)
    <*> required fs "message" checkText
    <*> optional fs "per_file" false checkBool
    <*> optional fs "fallback" none (checkOptional checkText)

def checkPathRule : Check PathRule := checkObject fun fs =>
  PathRule.mk <$> required fs "name" checkText
    <*> required fs "area" checkText
    <*> required fs "fragments" (checkTuple checkText)
    <*> required fs "weight" checkInt
    <*> optional fs "critical" false checkBool
    <*> optional fs "findings" [] (checkTuple checkFinding)

def checkThresholdRule : Check ThresholdRule := checkObject fun fs =>
  ThresholdRule.mk <$> required fs "name" checkText
    <*> required fs "metric" checkText
    <*> required fs "threshold" checkInt
    <*> required fs "weight" checkInt
    <*> optional fs "area" none (checkOptional checkText)
    <*> optional fs "findings" [] (checkTuple checkFinding)

def checkLevel : Check LevelThreshold := checkObject fun fs =>
  LevelThreshold.mk <$> required fs "min_score" checkInt
    <*> required fs "level" (checkNamed Level.named?)

namespace RuleTable

def check : Check RuleTable := checkObject fun fs =>
  let d : RuleTable := {}
  RuleTable.mk <$> optional fs "version" d.version checkText
    <*> optional fs "path_rules" d.pathRules (checkTuple checkPathRule)
    <*> optional fs "threshold_rules" d.thresholdRules (checkTuple checkThresholdRule)
    <*> optional fs "levels" d.levels (checkTuple checkLevel)

def read (s : String) : Checked RuleTable :=
  match Json.readLoose .strict s with
  | .ok v => check v
  | .error _ => .fail .badJson (.text s)

def orNull (s : Option String) : Json :=
  match s with
  | some s => .text s
  | none => .null

def findingJson (f : FindingTemplate) : Json :=
  .object [("category", .text f.category.name), ("message", .text f.message),
    ("per_file", .bool f.perFile), ("fallback", orNull f.fallback)]

def pathRuleJson (r : PathRule) : Json :=
  .object [("name", .text r.name), ("area", .text r.area), ("fragments", texts r.fragments),
    ("weight", .int r.weight), ("critical", .bool r.critical),
    ("findings", .list (r.findings.map findingJson))]

def thresholdRuleJson (r : ThresholdRule) : Json :=
  .object [("name", .text r.name), ("metric", .text r.metric), ("threshold", .int r.threshold),
    ("weight", .int r.weight), ("area", orNull r.area),
    ("findings", .list (r.findings.map findingJson))]

def levelJson (l : LevelThreshold) : Json :=
  .object [("min_score", .int l.minScore), ("level", .text l.level.name)]

def toJson (t : RuleTable) : Json :=
  .object [("version", .text t.version), ("path_rules", .list (t.pathRules.map pathRuleJson)),
    ("threshold_rules", .list (t.thresholdRules.map thresholdRuleJson)),
    ("levels", .list (t.levels.map levelJson))]

def write (t : RuleTable) : String := Json.write .stored t.toJson

end RuleTable

end ChangeImpact.Risk
