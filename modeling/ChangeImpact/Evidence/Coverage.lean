import ChangeImpact.Decimal.Binary64
import ChangeImpact.Evidence.TestName
import ChangeImpact.Imports.Extractor
import ChangeImpact.Imports.Resolver
import ChangeImpact.Repository.Basic
import ChangeImpact.Source.Limits

/-!
# Tests of a change

The tests that have evidence of covering a changed file. An import of the file is strong
evidence, a likeness of the names is middling, and a mention of the file's name in the text of
the test is weak; each test keeps for each file the strongest that it has.
-/

namespace ChangeImpact

namespace Evidence

inductive Confidence where
  | high
  | medium
  | low
  deriving Repr, DecidableEq

namespace Confidence

def name : Confidence → String
  | high => "high"
  | medium => "medium"
  | low => "low"

def named? (s : String) : Option Confidence := [high, medium, low].find? (·.name == s)

def rank : Confidence → Nat
  | low => 1
  | medium => 2
  | high => 3

end Confidence

structure RelatedTest where
  path : String
  confidence : Confidence
  relatedFiles : List String := []
  evidence : List (String × Confidence) := []
  deriving Repr, DecidableEq

structure Coverage where
  relatedTests : List RelatedTest := []
  coveragePercent : Int := 100
  missingTests : List String := []
  considered : Int := 0
  deriving Repr, DecidableEq

def Coverage.testsFor (r : Coverage) (path : String) : List RelatedTest :=
  r.relatedTests.filter (·.relatedFiles.contains path)

def commonStems : List String := ["index", "__init__", "main", "types"]

def standsIn (name : List Char) (before : Option Char) : List Char → Bool
  | [] => name.isEmpty && !before.any Text.isWord
  | c :: r =>
    (!before.any Text.isWord &&
      match Text.after? name (c :: r) with
      | some rest => !rest.head?.any Text.isWord
      | none => false) || standsIn name (some c) r

def alike (a b : String) : Bool :=
  a != "" && b != "" && (Text.occursIn a.toList b.toList || Text.occursIn b.toList a.toList)

def strongest (cs : List Confidence) : Confidence :=
  cs.foldl (fun a c => if a.rank < c.rank then c else a) .low

/-- The share of `covered` in `total` in percent, a half rounded up; each step rounds as
floating-point numbers do. -/
def percent (covered total : Nat) : Int :=
  let share := Binary64.nearest false covered total
  let hundredfold := share.times 100
  ((hundredfold.plusHalf.truncate?).getD 0)

end Evidence

namespace Repository

open Evidence

def resolver (r : Repository) : Imports.Resolver := ⟨r.isFile, r.settings.indexer.verifyImports⟩

def enters (r : Repository) (depth : Nat) (name : String) : Bool :=
  !r.settings.indexer.ignored.contains name && (depth : Int) < r.settings.tests.maxListingDepth

/-- The files that are reached from a test folder, each by the names that lead down to it. -/
def filesUnder (r : Repository) (start : Path) : List (List String) :=
  Source.listFiles (Source.shutBelow r.disk start) r.enters
    [⟨0, [], ((r.disk.at? start).getD .empty).entries⟩]

def testsIn (r : Repository) (folder : String) : List String :=
  let start := r.root.child folder
  match r.root.below? start with
  | some parts =>
    ((r.filesUnder start).map fun names => Path.ofParts (parts ++ names)).filter
      fun f => (Language.ofPath? f).isSome && looksLikeTest f
  | none => []

def listedTests (r : Repository) : List String :=
  Source.sorted (r.settings.tests.folders.flatMap r.testsIn).eraseDups

/-- The listed tests, then the tests that stand by convention beside the changed files. -/
def consideredTests (r : Repository) (changed : List String) : List String :=
  (r.listedTests ++ (changed.flatMap conventionalTests).filter r.isFile).eraseDups

def mentions (r : Repository) (text name : String) : Bool :=
  r.settings.tests.minMentionLength ≤ name.length && !commonStems.contains (bareStem name) &&
    standsIn name.toList none text.toList

def evidenceFor (r : Repository) (test text : String) (imported : List String) (path : String) :
    Option Confidence :=
  let name := (Path.ofString path).name
  if path == test then none
  else if imported.contains path then some .high
  else if alike (bareStem name) (testedStem (Path.ofString test).name) then some .medium
  else if r.mentions text name then some .low
  else none

def textOf (r : Repository) (path : String) : String :=
  (Source.read? r.disk r.root r.settings.indexer.maxFileBytes path).getD ""

def importedBy (r : Repository) (path : String) : List String :=
  Imports.ofText (Language.ofPath? path) (r.textOf path)

def testEvidence (r : Repository) (test : String) (changed : List String) : Option RelatedTest :=
  let text := r.textOf test
  let imported := (r.importedBy test).filterMap (r.resolver.resolve? · test)
  let evidence := changed.filterMap fun path =>
    (r.evidenceFor test text imported path).map fun c => (path, c)
  if evidence.isEmpty then none
  else
    some { path := test, confidence := strongest (evidence.map (·.2)),
           relatedFiles := evidence.map (·.1), evidence }

def coverageOf (r : Repository) (changed : List String) : Coverage :=
  let changed := changed.eraseDups
  if changed.isEmpty then {}
  else
    let tests := r.consideredTests changed
    let related := tests.filterMap (r.testEvidence · changed)
    let covered := (related.flatMap (·.relatedFiles)).eraseDups
    { relatedTests := related
      coveragePercent := min 100 (max 0 (percent covered.length changed.length))
      missingTests := changed.filter (!covered.contains ·)
      considered := tests.length }

def lookFault? (r : Repository) (path : String) : Option DiskFault :=
  Source.lookFault? r.disk (r.root.child path)

def resolveFault? (r : Repository) (specifier referencer : String) : Option DiskFault :=
  (r.resolver.passedOver specifier referencer).findSome? r.lookFault?

/-- A test folder outside the root from which some file is reached; the first one is named. -/
def outsideFault? (r : Repository) (folder : String) : Option DiskFault :=
  let start := r.root.child folder
  if (r.root.below? start).isSome then none
  else (r.filesUnder start).head?.map fun names => .outside (start.down names) r.root

def folderFault? (r : Repository) (folder : String) : Option DiskFault :=
  (r.lookFault? folder).or (r.outsideFault? folder)

/-- What keeps the tests to be considered from being listed. A test that is listed is not looked up
again. -/
def listingFault? (r : Repository) (changed : List String) : Option DiskFault :=
  (r.settings.tests.folders.findSome? r.folderFault?).or
    (((changed.flatMap conventionalTests).filter (!r.listedTests.contains ·)).findSome?
      r.lookFault?)

def testFault? (r : Repository) (test : String) : Option DiskFault :=
  (Source.readFault? r.machine r.disk r.root r.settings.indexer.maxFileBytes test).or
    ((r.importedBy test).findSome? (r.resolveFault? · test))

def coverageFault? (r : Repository) (changed : List String) : Option DiskFault :=
  if changed.isEmpty then none
  else
    (r.listingFault? changed).or ((r.consideredTests changed.eraseDups).findSome? r.testFault?)

def findTests (r : Repository) (changed : List String) : Except DiskFault Coverage :=
  ifNoFault (r.coverageFault? changed) (r.coverageOf changed)

end Repository

end ChangeImpact
