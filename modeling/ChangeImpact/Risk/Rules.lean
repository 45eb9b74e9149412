import ChangeImpact.Json.Checked
import ChangeImpact.Text.LowerCase

/-!
# Risk rules

A rule table says which changes carry a risk. A path rule fires on the fragments of changed
paths, a threshold rule on a measure of the change; each adds its weight to the score and may
make findings. The score leads to a level.
-/

namespace ChangeImpact.Risk

inductive Level where
  | low
  | medium
  | high
  | critical
  deriving Repr, DecidableEq

namespace Level

def name : Level → String
  | low => "Low"
  | medium => "Medium"
  | high => "High"
  | critical => "Critical"

def named? (s : String) : Option Level := [low, medium, high, critical].find? (·.name == s)

end Level

inductive Category where
  | breakingChange
  | regression
  | performance
  | security
  | dataIntegrity
  | possiblyMissed
  deriving Repr, DecidableEq

namespace Category

def all : List Category :=
  [breakingChange, regression, performance, security, dataIntegrity, possiblyMissed]

def name : Category → String
  | breakingChange => "breaking_change"
  | regression => "regression"
  | performance => "performance"
  | security => "security"
  | dataIntegrity => "data_integrity"
  | possiblyMissed => "possibly_missed"

def label : Category → String
  | breakingChange => "Breaking change"
  | regression => "Regression"
  | performance => "Performance"
  | security => "Security"
  | dataIntegrity => "Data integrity"
  | possiblyMissed => "Possibly missed"

def named? (s : String) : Option Category := all.find? (·.name == s)

end Category

structure FindingTemplate where
  category : Category
  message : String
  perFile : Bool := false
  fallback : Option String := none
  deriving Repr, DecidableEq

structure PathRule where
  name : String
  area : String
  fragments : List String
  weight : Int
  critical : Bool := false
  findings : List FindingTemplate := []
  deriving Repr, DecidableEq

structure ThresholdRule where
  name : String
  metric : String
  threshold : Int
  weight : Int
  area : Option String := none
  findings : List FindingTemplate := []
  deriving Repr, DecidableEq

structure LevelThreshold where
  minScore : Int
  level : Level
  deriving Repr, DecidableEq

structure RuleTable where
  version : String := "2024.1"
  pathRules : List PathRule := []
  thresholdRules : List ThresholdRule := []
  levels : List LevelThreshold := [⟨10, .critical⟩, ⟨6, .high⟩, ⟨3, .medium⟩]
  deriving Repr, DecidableEq

/-- Some fragment stands in the path, letter case of the path aside. -/
def PathRule.fires (r : PathRule) (path : String) : Bool :=
  let lowered := (Text.lower path).toList
  r.fragments.any fun f => Text.occursIn f.toList lowered

def RuleTable.levelAt (t : RuleTable) (score : Int) : Level :=
  match (t.levels.mergeSort fun a b => b.minScore ≤ a.minScore).find? (·.minScore ≤ score) with
  | some l => l.level
  | none => .low

end ChangeImpact.Risk
