import ChangeImpact.Console.Block
import ChangeImpact.Json.Shown
import ChangeImpact.Report.Basic

/-!
# What a user is shown

Messages, the figures of a graph, the dependents of files, tests, and whole reports, as blocks
for the terminal.
-/

namespace ChangeImpact.Console

open Decimal (ofInt ofNat)
open Evidence (Confidence Coverage RelatedTest)
open Risk (Category Level)

def styled (style text : String) : String := "[" ++ style ++ "]" ++ text ++ "[/" ++ style ++ "]"

def bold : String → String := styled "bold"

def dim : String → String := styled "dim"

def success (message : String) : Block := .text (styled "green" "✓" ++ " " ++ message)

def error (message : String) : Block := .text (styled "red" "✗" ++ " " ++ message)

def warning (message : String) : Block := .text (styled "yellow" "!" ++ " " ++ message)

def info (message : String) : Block := .text (styled "blue" "i" ++ " " ++ message)

def banner (version : String) : Block :=
  .panel none
    (styled "bold cyan" "ImpactLens" ++ " " ++ dim ("v" ++ version) ++ "\n" ++
      dim "What does this change touch, and how risky is it?") 1 2

def statNames : List (String × String) :=
  [("Files found", "files_found"), ("Files scanned", "files_scanned"),
    ("Files skipped", "files_skipped"), ("Import edges", "edges"), ("Imported files", "targets")]

def indexStats (stats : Json.Fields) : Block :=
  .table "Dependency Index" [⟨"Metric", .left⟩, ⟨"Count", .right⟩]
    (statNames.map fun (label, name) =>
      [label, ((Json.Fields.named? stats name).getD (.int 0)).shown.visible])

def dependents (r : Impact) (path : String) : Block :=
  let direct := r.directOf path
  .tree (styled "bold cyan" path)
    ((if direct.isEmpty then [dim "no dependents"] else []) ++
      direct.map (fun d => bold d ++ " " ++ dim "(direct)") ++
      (r.indirectOf path).map fun d =>
        d ++ " " ++ dim ("(depth " ++ ofInt (r.depthOf d) ++ ")"))

def impact (r : Impact) : List Block :=
  r.changed.map (dependents r) ++
    [.text ("\n" ++ bold (ofNat r.totalAffected) ++ " affected files (" ++ ofNat r.totalDirect ++
      " direct, " ++ ofNat r.totalIndirect ++ " indirect, max depth " ++ ofInt r.maxDepth ++ ")")]

def confidenceStyle : Confidence → String
  | .high => "green"
  | .medium => "yellow"
  | .low => "dim"

def testRow (t : RelatedTest) : List String :=
  [t.path, styled (confidenceStyle t.confidence) t.confidence.name,
    "\n".intercalate t.relatedFiles]

def percentStyle (n : Int) : String :=
  if 80 ≤ n then "green" else if 50 ≤ n then "yellow" else "red"

def tests (r : Coverage) : List Block :=
  [if r.relatedTests.isEmpty then warning "No related tests found"
    else .table "Related Tests" [⟨"Test", .left⟩, ⟨"Confidence", .center⟩, ⟨"Covers", .left⟩]
      (r.relatedTests.map testRow),
    .text ("Test coverage of changed files: " ++
      styled (percentStyle r.coveragePercent) (ofInt r.coveragePercent ++ "%"))] ++
  r.missingTests.map fun p => .text ("  " ++ styled "red" "missing" ++ " " ++ p)

def levelStyle : Level → String
  | .low => "green"
  | .medium => "yellow"
  | .high => "red"
  | .critical => "bold red"

def overview (r : Report) : Block :=
  let s := r.summary
  .panel
    (some (bold ("Impact of " ++ (if r.branch.isEmpty then "changes" else r.branch.visible))))
    ("\n".intercalate [
      bold "Risk:" ++ " " ++ styled (levelStyle r.risk.level) r.risk.level.name ++ " (score " ++
        ofInt r.risk.score ++ ")",
      bold "Files changed:" ++ " " ++ ofInt s.filesChanged ++ " (+" ++ ofInt s.filesAdded ++ " ~" ++
        ofInt s.filesModified ++ " -" ++ ofInt s.filesDeleted ++ ")",
      bold "Lines:" ++ " +" ++ ofInt s.linesAdded ++ " / -" ++ ofInt s.linesDeleted,
      bold "Affected files:" ++ " " ++ ofNat r.impact.totalAffected,
      bold "Areas:" ++ " " ++
        (let areas := ", ".intercalate r.risk.areas
         if areas == "" then "none" else areas)]) 0 1

def findings (r : Report) : List Block :=
  Category.all.flatMap fun c =>
    let messages := r.risk.findingsUnder c
    if messages.isEmpty then []
    else .text ("\n" ++ bold c.label) :: messages.map fun m => .text ("  • " ++ m)

def reportStart (r : Report) : List Block := overview r :: findings r

def diffWarning (w : Risk.Warning) : Block :=
  warning (w.path ++ ":" ++ ofInt w.line ++ " " ++ w.message)

def report (r : Report) : List Block :=
  reportStart r ++ r.risk.warnings.map diffWarning ++
  (if r.impact.changed.isEmpty then [] else .blank :: impact r.impact) ++
  .blank :: tests r.coverage ++
  if r.risk.criticalFiles.isEmpty then []
  else
    .text ("\n" ++ bold "Critical files to test:") ::
      r.risk.criticalFiles.map fun p => .text ("  " ++ styled "cyan" p)

end ChangeImpact.Console
