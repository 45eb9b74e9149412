import ChangeImpact.Report.Basic

/-!
# Reports in plain text

A short form of the report for a log.
-/

namespace ChangeImpact.Report

open Decimal (ofInt ofNat)
open Risk (Category)

def plainHeader (r : Report) : LooseText :=
  .ofString "Change impact" ++
    if r.branch.isEmpty then .ofString ""
    else
      .ofString " for " ++ r.branch ++
        if r.base.isEmpty then .ofString "" else .ofString " vs " ++ r.base

def plainFigures (r : Report) : String :=
  "Risk: " ++ r.risk.level.name ++ " (score " ++ ofInt r.risk.score ++ ")  Files: " ++
    ofInt r.summary.filesChanged ++ "  Lines: +" ++ ofInt r.summary.linesAdded ++ "/-" ++
    ofInt r.summary.linesDeleted ++ "  Coverage: " ++ ofInt r.coverage.coveragePercent ++ "%"

def plainDependents (r : Impact) (path : String) : List String :=
  ("  " ++ path) :: (r.directOf path).map ("    <- " ++ ·) ++
    (r.indirectOf path).map fun p => "    <~ " ++ p ++ " (depth " ++ ofInt (r.depthOf p) ++ ")"

def plainLines (r : Report) : List String :=
  [plainFigures r] ++
  (if r.risk.areas.isEmpty then [] else ["Areas: " ++ ", ".intercalate r.risk.areas]) ++
  ["Affected: " ++ ofNat r.impact.totalAffected ++ " (" ++ ofNat r.impact.totalDirect ++
    " direct, " ++ ofNat r.impact.totalIndirect ++ " indirect)"] ++
  r.impact.changed.flatMap (plainDependents r.impact) ++
  (Category.all.flatMap fun c =>
    let messages := r.risk.findingsUnder c
    if messages.isEmpty then [] else (c.label ++ ":") :: messages.map ("  - " ++ ·)) ++
  r.risk.warnings.map (fun w =>
    "Warning " ++ w.path ++ ":" ++ ofInt w.line ++ ": " ++ w.message) ++
  (if r.coverage.relatedTests.isEmpty then []
    else "Related tests:" :: r.coverage.relatedTests.map fun t =>
      "  [" ++ t.confidence.name ++ "] " ++ t.path) ++
  if r.coverage.missingTests.isEmpty then []
  else ["Missing tests: " ++ ", ".intercalate r.coverage.missingTests]

def plain (r : Report) : LooseText :=
  .intercalate "\n" (plainHeader r :: (plainLines r).map LooseText.ofString)

end ChangeImpact.Report
