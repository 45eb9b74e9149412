import ChangeImpact.Report.Basic

/-!
# Fields of a report

How a report and its parts are written as JSON, and how they are checked when they come from
there. Every part but the root of the repository may be left out.
-/

namespace ChangeImpact

open Json
open Evidence (Confidence RelatedTest Coverage)
open Risk (Assessment Category Warning Level WarningKind)

def textsByName (table : List (String × List String)) : Json :=
  .object (table.map fun (name, xs) => (.ofString name, texts xs))

namespace Impact

def toJson (r : Impact) : Json :=
  .object [
    ("changed", texts r.changed),
    ("direct_dependents", textsByName r.direct),
    ("indirect_dependents", textsByName r.indirect),
    ("indirect_depths", .object (r.depths.map fun (path, n) => (.ofString path, .int n))),
    ("all_affected", texts r.allAffected),
    ("max_depth", .int r.maxDepth)]

def check : Check Impact := checkObject fun fs =>
  Impact.mk <$> optional fs "changed" [] (checkList checkText)
    <*> optional fs "direct_dependents" [] (checkTable (checkList checkText))
    <*> optional fs "indirect_dependents" [] (checkTable (checkList checkText))
    <*> optional fs "indirect_depths" [] (checkTable checkInt)
    <*> optional fs "all_affected" [] (checkList checkText)
    <*> optional fs "max_depth" 2 checkInt

end Impact

namespace Evidence

def confidenceJson (c : Confidence) : Json := .text c.name

def checkConfidence : Check Confidence := checkNamed Confidence.named?

def RelatedTest.toJson (t : RelatedTest) : Json :=
  .object [
    ("path", .text t.path),
    ("confidence", confidenceJson t.confidence),
    ("related_files", texts t.relatedFiles),
    ("evidence", .object (t.evidence.map fun (path, c) => (.ofString path, confidenceJson c)))]

def RelatedTest.check : Check RelatedTest := checkObject fun fs =>
  RelatedTest.mk <$> required fs "path" checkText
    <*> required fs "confidence" checkConfidence
    <*> optional fs "related_files" [] (checkList checkText)
    <*> optional fs "evidence" [] (checkTable checkConfidence)

def Coverage.toJson (r : Coverage) : Json :=
  .object [
    ("related_tests", .list (r.relatedTests.map RelatedTest.toJson)),
    ("coverage_percent", .int r.coveragePercent),
    ("missing_tests", texts r.missingTests),
    ("candidates_scanned", .int r.considered)]

def Coverage.check : Check Coverage := checkObject fun fs =>
  Coverage.mk <$> optional fs "related_tests" [] (checkList RelatedTest.check)
    <*> optional fs "coverage_percent" 100 checkInt
    <*> optional fs "missing_tests" [] (checkList checkText)
    <*> optional fs "candidates_scanned" 0 checkInt

end Evidence

namespace Risk

def Warning.toJson (w : Warning) : Json :=
  .object [("kind", .text w.kind.name), ("path", .text w.path), ("line", .int w.line),
    ("message", .text w.message)]

def Warning.check : Check Warning := checkObject fun fs =>
  Warning.mk <$> (WarningKind.ofName <$> required fs "kind" checkText)
    <*> required fs "path" checkText
    <*> optional fs "line" 0 checkInt
    <*> required fs "message" checkText

def findingsJson (findings : List (Category × List String)) : Json :=
  textsByName (findings.map fun (c, messages) => (c.name, messages))

def checkCategory (name : String) : Checked Category :=
  (checkNamed Category.named? (.text name)).under (.field "[key]") |>.under (.field name)

def checkFindings : Fields → Checked (List (Category × List String))
  | [] => pure []
  | (name, v) :: r =>
    (fun c messages rest => (c, messages) :: rest) <$> checkCategory name.visible
      <*> (checkList checkText v).under (.field name.visible) <*> checkFindings r

def Assessment.toJson (a : Assessment) : Json :=
  .object [
    ("level", .text a.level.name),
    ("score", .int a.score),
    ("signals", texts a.signals),
    ("areas_affected", texts a.areas),
    ("findings", findingsJson a.findings),
    ("diff_warnings", .list (a.warnings.map Warning.toJson)),
    ("critical_files_to_test", texts a.criticalFiles),
    ("rules_version", .text a.rulesVersion)]

def Assessment.check : Check Assessment := checkObject fun fs =>
  Assessment.mk <$> optional fs "level" .low (checkNamed Level.named?)
    <*> optional fs "score" 0 checkInt
    <*> optional fs "signals" [] (checkList checkText)
    <*> optional fs "areas_affected" [] (checkList checkText)
    <*> optional fs "findings" [] (fun v => match v with
      | .object entries => checkFindings entries
      | v => .fail .notTable v)
    <*> optional fs "diff_warnings" [] (checkList Warning.check)
    <*> optional fs "critical_files_to_test" [] (checkList checkText)
    <*> optional fs "rules_version" "" checkText

end Risk

def ReportSummary.toJson (s : ReportSummary) : Json :=
  .object [
    ("files_changed", .int s.filesChanged),
    ("files_added", .int s.filesAdded),
    ("files_modified", .int s.filesModified),
    ("files_deleted", .int s.filesDeleted),
    ("lines_added", .int s.linesAdded),
    ("lines_deleted", .int s.linesDeleted)]

def ReportSummary.check : Check ReportSummary := checkObject fun fs =>
  ReportSummary.mk <$> optional fs "files_changed" 0 checkInt
    <*> optional fs "files_added" 0 checkInt
    <*> optional fs "files_modified" 0 checkInt
    <*> optional fs "files_deleted" 0 checkInt
    <*> optional fs "lines_added" 0 checkInt
    <*> optional fs "lines_deleted" 0 checkInt

namespace Report

def toJson (r : Report) : Json :=
  .object [
    ("root", .text r.root),
    ("branch", .text r.branch),
    ("base", .text r.base),
    ("summary", r.summary.toJson),
    ("changeset", r.changes.toJson),
    ("impact", r.impact.toJson),
    ("coverage", r.coverage.toJson),
    ("risk", r.risk.toJson),
    ("commit_messages", texts r.commitMessages),
    ("file_contents", .object (r.fileContents.map fun (path, s) => (.ofString path, .text s))),
    ("index_stats", .object r.indexStats)]

def check : Check Report := checkObject fun fs =>
  Report.mk <$> required fs "root" checkText
    <*> optional fs "branch" "" checkLooseText
    <*> optional fs "base" "" checkLooseText
    <*> optional fs "summary" {} ReportSummary.check
    <*> optional fs "changeset" {} ChangeSet.check
    <*> optional fs "impact" {} Impact.check
    <*> optional fs "coverage" {} Coverage.check
    <*> optional fs "risk" {} Assessment.check
    <*> optional fs "commit_messages" [] (checkList checkText)
    <*> optional fs "file_contents" [] (checkTable checkText)
    <*> optional fs "index_stats" [] (fun v => match v with
      | .object entries => pure entries
      | v => .fail .notTable v)

end Report

end ChangeImpact
