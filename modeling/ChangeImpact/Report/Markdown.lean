import ChangeImpact.Json.Shown
import ChangeImpact.Report.Basic
import ChangeImpact.Report.FileTree
import ChangeImpact.Source.Limits

/-!
# Reports in Markdown

The report as a comment on a pull request: the risk and the figures, findings by category,
warnings, dependents of each changed file, tests, and the tree of affected files. Long lists
are cut, with the number of what is left out. A number may have too many digits, and the tree may
have more folders below one another than the machine draws.
-/

namespace ChangeImpact.Report

open Decimal (ofInt ofNat)
open Evidence (Coverage RelatedTest)
open Risk (Assessment Category Warning Level)

def listLimit : Nat := 15

def badge : Level → String
  | .low => "🟢"
  | .medium => "🟡"
  | .high => "🔴"
  | .critical => "⛔"

def code (s : String) : String := "`" ++ s ++ "`"

def bullet (s : String) : String := "- " ++ s

def listed (items : List String) (line : String → String) : List String :=
  (items.take listLimit).map line ++
    if listLimit < items.length then ["- ... and " ++ ofNat (items.length - listLimit) ++ " more"]
    else []

def looseCode (s : LooseText) : LooseText := .ofString "`" ++ s ++ .ofString "`"

def title (r : Report) : LooseText :=
  .ofString "## Change Impact Analysis" ++
    if r.branch.isEmpty then .ofString ""
    else
      .ofString ": " ++ looseCode r.branch ++
        if r.base.isEmpty then .ofString "" else .ofString " vs " ++ looseCode r.base

def figures (r : Report) : List String :=
  ["| Risk | Files Changed | Lines | Affected | Test Coverage |",
    "|:---:|:---:|:---:|:---:|:---:|",
    "| " ++ badge r.risk.level ++ " **" ++ r.risk.level.name ++ "** (" ++ ofInt r.risk.score ++
      ") | " ++ ofInt r.summary.filesChanged ++ " | +" ++ ofInt r.summary.linesAdded ++ " / -" ++
      ofInt r.summary.linesDeleted ++ " | " ++ ofNat r.impact.totalAffected ++ " | " ++
      ofInt r.coverage.coveragePercent ++ "% |",
    ""]

def areas (a : Assessment) : List String :=
  if a.areas.isEmpty then [] else ["**Areas affected:** " ++ ", ".intercalate a.areas, ""]

def findings (a : Assessment) : List String :=
  if a.hasFindings then
    ["### Findings", ""] ++ Category.all.flatMap fun c =>
      let messages := a.findingsUnder c
      if messages.isEmpty then [] else ("**" ++ c.label ++ "**") :: messages.map bullet ++ [""]
  else []

def warnings (a : Assessment) : List String :=
  if a.warnings.isEmpty then []
  else
    ["### Diff Warnings", ""] ++
      a.warnings.map (fun w => bullet (code (w.path ++ ":" ++ ofInt w.line) ++ " " ++ w.message)) ++
      [""]

def criticalFiles (a : Assessment) : List String :=
  if a.criticalFiles.isEmpty then []
  else
    ["### Critical Files to Test", ""] ++ listed a.criticalFiles (fun p => bullet (code p)) ++ [""]

def dependentsOf (r : Impact) (path : String) : List String :=
  let direct := r.directOf path
  let indirect := r.indirectOf path
  ["<details>",
    "<summary><code>" ++ path ++ "</code>: " ++ ofNat direct.length ++ " direct, " ++
      ofNat indirect.length ++ " indirect</summary>",
    "", "**Direct:**"] ++
  listed direct (fun p => bullet (code p)) ++
  (if indirect.isEmpty then []
    else ["", "**Indirect:**"] ++ listed indirect fun p =>
      bullet (code p) ++ " (depth " ++ ofInt (r.depthOf p) ++ ")") ++
  ["", "</details>", ""]

def dependents (r : Impact) : List String :=
  let shown := r.changed.filter fun p => !(r.directOf p).isEmpty
  if shown.isEmpty then [] else ["### Dependents", ""] ++ shown.flatMap (dependentsOf r)

def testRow (t : RelatedTest) : String :=
  "| " ++ code t.path ++ " | " ++ t.confidence.name ++ " | " ++
    ", ".intercalate (t.relatedFiles.map code) ++ " |"

def tests (r : Coverage) : List String :=
  ["### Related Tests", ""] ++
  (if r.relatedTests.isEmpty then ["> No related tests found."]
    else ["| Test | Confidence | Covers |", "|:-----|:----------:|:-------|"] ++
      r.relatedTests.map testRow) ++
  [""] ++
  if r.missingTests.isEmpty then []
  else
    "**Changed files without tests:**" :: r.missingTests.map (fun p => bullet (code p)) ++ [""]

def drawsTree (r : Impact) : Bool := r.changed.length < r.allAffected.length

def affectedTree (r : Impact) : List String :=
  if drawsTree r then ["### Affected Files", "```"] ++ fileTree r.allAffected ++ ["```", ""]
  else []

def stat (stats : Json.Fields) (name : String) : LooseText :=
  ((Json.Fields.named? stats name).getD (.int 0)).shown

def indexNote (r : Report) : List LooseText :=
  if r.indexStats.isEmpty then []
  else
    [.ofString "> Indexed " ++ stat r.indexStats "files_scanned" ++ .ofString " files, " ++
      stat r.indexStats "edges" ++
      .ofString (" import edges. Rules " ++ r.risk.rulesVersion ++ "."), ""]

def bodyLines (r : Report) : List String :=
  figures r ++ areas r.risk ++ findings r.risk ++ warnings r.risk ++ criticalFiles r.risk ++
    dependents r.impact ++ tests r.coverage ++ affectedTree r.impact

def markdownLines (r : Report) : List LooseText :=
  title r :: "" ::
    if r.changes.isEmpty then [.ofString "> No files changed.", ""]
    else (bodyLines r).map LooseText.ofString ++ indexNote r

def markdown (r : Report) : LooseText := .intercalate "\n" (markdownLines r)

inductive RenderFault where
  | overlong
  | tooDeep
  deriving Repr, DecidableEq

/-- A call for each folder above the last part of a path and one for the whole draw its tree. -/
def isTooDeep (m : Machine) (paths : List String) : Bool :=
  paths.any fun p => m.drawing < (Text.fields '/' p).length

def renderFault? (m : Machine) (r : Report) : Option RenderFault :=
  if r.changes.isEmpty then none
  else if r.isOverlong then some .overlong
  else if drawsTree r.impact && isTooDeep m r.impact.allAffected then some .tooDeep
  else none

end ChangeImpact.Report
