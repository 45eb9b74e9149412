import ChangeImpact.Risk.Assess

/-!
# Reports

Everything that one analysis of a change brings to light.
-/

namespace ChangeImpact

open Evidence (Coverage)
open Risk (Assessment)

structure ReportSummary where
  filesChanged : Int := 0
  filesAdded : Int := 0
  filesModified : Int := 0
  filesDeleted : Int := 0
  linesAdded : Int := 0
  linesDeleted : Int := 0
  deriving Repr, DecidableEq

def ReportSummary.of (c : ChangeSet) : ReportSummary :=
  { filesChanged := c.paths.length
    filesAdded := c.filesAdded
    filesModified := c.filesModified
    filesDeleted := c.filesDeleted
    linesAdded := c.linesAdded
    linesDeleted := c.linesDeleted }

structure Report where
  root : String
  branch : LooseText := ""
  base : LooseText := ""
  summary : ReportSummary := {}
  changes : ChangeSet := {}
  impact : Impact := {}
  coverage : Coverage := {}
  risk : Assessment := {}
  commitMessages : List String := []
  fileContents : List (String × String) := []
  indexStats : Json.Fields := []

namespace Report

def sums (r : Report) : List Int := [r.risk.score, r.summary.linesAdded, r.summary.linesDeleted]

def isOverlong (r : Report) : Bool :=
  (r.sums ++ r.risk.warnings.map (·.line)).any Template.Layout.isOverlong

end Report

end ChangeImpact
