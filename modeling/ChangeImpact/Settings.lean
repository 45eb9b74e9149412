import ChangeImpact.Json.Checked

/-!
# Settings

What a repository can set, with the values that hold when it does not, the limits that every
set of values keeps, and the written form as JSON. One value is set by its name, the section
and the field with a dot between them, or a whole section by its name.
-/

namespace ChangeImpact

structure IndexSettings where
  ignoreDirs : List LooseText :=
    [".git", ".hg", ".svn", "node_modules", "bower_components", "vendor", "dist", "build", "out",
      "coverage", ".nyc_output", ".next", ".nuxt", ".cache", "__pycache__", ".venv", "venv",
      ".tox", ".mypy_cache", ".pytest_cache", ".impactlens"]
  maxFileBytes : Int := 100000
  workers : Int := 1
  verifyImports : Bool := true
  deriving Repr, DecidableEq

def IndexSettings.ignored (s : IndexSettings) : List String :=
  s.ignoreDirs.filterMap LooseText.toString?

structure TestSettings where
  testDirs : List LooseText :=
    ["tests", "test", "__tests__", "spec", "tests/e2e/specs", "tests/e2e/api/api-specs",
      "tests/unit/backend", "tests/integration/backend"]
  maxListingDepth : Int := 8
  minMentionLength : Int := 4
  deriving Repr, DecidableEq

def TestSettings.folders (s : TestSettings) : List String :=
  s.testDirs.filterMap LooseText.toString?

structure ImpactSettings where
  maxDepth : Int := 2
  deriving Repr, DecidableEq

structure DiffSettings where
  defaultBase : LooseText := "main"
  maxDiffBytes : Int := 50000
  maxContentFiles : Int := 10
  maxContentBytes : Int := 10000
  maxCommitMessages : Int := 10
  deriving Repr, DecidableEq

structure RiskSettings where
  rulesFile : Option LooseText := none
  scanDiff : Bool := true
  deriving Repr, DecidableEq

structure Settings where
  indexer : IndexSettings := {}
  tests : TestSettings := {}
  impact : ImpactSettings := {}
  diff : DiffSettings := {}
  risk : RiskSettings := {}
  deriving Repr, DecidableEq

namespace Settings

open Json

def checkAbove (least : Int) : Check Int := fun v =>
  (checkInt v).ensure (least < ·) .tooSmall v

def checkAtLeast (least : Int) : Check Int := fun v =>
  (checkInt v).ensure (least ≤ ·) .belowLeast v

def checkIndexer : Check IndexSettings := checkObject fun fs =>
  let d : IndexSettings := {}
  IndexSettings.mk <$> optional fs "ignore_dirs" d.ignoreDirs (checkList checkLooseText)
    <*> optional fs "max_file_bytes" d.maxFileBytes (checkAbove 0)
    <*> optional fs "workers" d.workers (checkAtLeast 1)
    <*> optional fs "verify_imports_exist" d.verifyImports checkBool

def checkTests : Check TestSettings := checkObject fun fs =>
  let d : TestSettings := {}
  TestSettings.mk <$> optional fs "test_dirs" d.testDirs (checkList checkLooseText)
    <*> optional fs "max_listing_depth" d.maxListingDepth (checkAtLeast 0)
    <*> optional fs "min_mention_length" d.minMentionLength (checkAtLeast 1)

def checkImpact : Check ImpactSettings := checkObject fun fs =>
  ImpactSettings.mk <$> optional fs "max_depth" ({} : ImpactSettings).maxDepth (checkAtLeast 0)

def checkDiff : Check DiffSettings := checkObject fun fs =>
  let d : DiffSettings := {}
  DiffSettings.mk <$> optional fs "default_base" d.defaultBase checkLooseText
    <*> optional fs "max_diff_bytes" d.maxDiffBytes (checkAbove 0)
    <*> optional fs "max_content_files" d.maxContentFiles (checkAtLeast 0)
    <*> optional fs "max_content_bytes" d.maxContentBytes (checkAbove 0)
    <*> optional fs "max_commit_messages" d.maxCommitMessages (checkAtLeast 0)

def checkRisk : Check RiskSettings := checkObject fun fs =>
  let d : RiskSettings := {}
  RiskSettings.mk <$> optional fs "rules_file" d.rulesFile (checkOptional checkLooseText)
    <*> optional fs "scan_diff" d.scanDiff checkBool

def checkFields (fs : Fields) : Checked Settings :=
  Settings.mk <$> optional fs "indexer" {} checkIndexer
    <*> optional fs "tests" {} checkTests
    <*> optional fs "impact" {} checkImpact
    <*> optional fs "diff" {} checkDiff
    <*> optional fs "risk" {} checkRisk

def check : Check Settings := checkObject checkFields

def integers (s : Settings) : List Int :=
  [s.indexer.maxFileBytes, s.indexer.workers, s.tests.maxListingDepth, s.tests.minMentionLength,
    s.impact.maxDepth, s.diff.maxDiffBytes, s.diff.maxContentFiles, s.diff.maxContentBytes,
    s.diff.maxCommitMessages]

def toJson (s : Settings) : Json :=
  .object [
    ("indexer", .object [
      ("ignore_dirs", looseTexts s.indexer.ignoreDirs),
      ("max_file_bytes", .int s.indexer.maxFileBytes),
      ("workers", .int s.indexer.workers),
      ("verify_imports_exist", .bool s.indexer.verifyImports)]),
    ("tests", .object [
      ("test_dirs", looseTexts s.tests.testDirs),
      ("max_listing_depth", .int s.tests.maxListingDepth),
      ("min_mention_length", .int s.tests.minMentionLength)]),
    ("impact", .object [("max_depth", .int s.impact.maxDepth)]),
    ("diff", .object [
      ("default_base", .text s.diff.defaultBase),
      ("max_diff_bytes", .int s.diff.maxDiffBytes),
      ("max_content_files", .int s.diff.maxContentFiles),
      ("max_content_bytes", .int s.diff.maxContentBytes),
      ("max_commit_messages", .int s.diff.maxCommitMessages)]),
    ("risk", .object [
      ("rules_file", match s.risk.rulesFile with | some f => .text f | none => .null),
      ("scan_diff", .bool s.risk.scanDiff)])]

def WithinLimits (s : Settings) : Prop :=
  0 < s.indexer.maxFileBytes ∧ 1 ≤ s.indexer.workers ∧ 0 ≤ s.tests.maxListingDepth ∧
    1 ≤ s.tests.minMentionLength ∧ 0 ≤ s.impact.maxDepth ∧ 0 < s.diff.maxDiffBytes ∧
    0 ≤ s.diff.maxContentFiles ∧ 0 < s.diff.maxContentBytes ∧ 0 ≤ s.diff.maxCommitMessages

instance (s : Settings) : Decidable s.WithinLimits := by
  unfold WithinLimits; infer_instance

/-- The value with `new` in place of what stands at the end of the names, if all of them are
there. -/
def replaceAt? (new : Json) : List String → Json → Option Json
  | [], _ => some new
  | name :: r, .object fields =>
    match Fields.named? fields name with
    | some old => (replaceAt? new r old).map fun v => .object (put name v fields)
    | none => none
  | _ :: _, _ => none

inductive SetError where
  | unknownKey (key : String)
  | invalid (key : String) (issues : List Issue)
  deriving Repr, DecidableEq

def set (s : Settings) (key : String) (value : Json) : Except SetError Settings :=
  match replaceAt? value (Text.fields '.' key) s.toJson with
  | none => .error (.unknownKey key)
  | some v =>
    match check v with
    | .good s => .ok s
    | .bad issues => .error (.invalid key issues)

def get? (s : Settings) (key : String) : Option Json :=
  (Text.fields '.' key).foldl (fun v name => v.bind (·.field? name)) (some s.toJson)

end Settings

end ChangeImpact
