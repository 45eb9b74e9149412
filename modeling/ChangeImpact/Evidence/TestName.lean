import ChangeImpact.Source.Language

/-!
# Names of tests

Which paths look like tests, what a test's name says about the file it tests, and where a test
of a file stands by convention.
-/

namespace ChangeImpact.Evidence

/-- `stem.test.ext` or `stem.spec.ext`, with nothing but a dotless ending after the mark; a
line end may close it. -/
def hasDottedMark (name : List Char) : Bool :=
  let ending := (name.reverse.takeWhile (· != '.')).reverse
  let before := name.take (name.length - ending.length)
  !ending.isEmpty && [".test.", ".spec."].any fun m => m.toList.isSuffixOf before

def withoutLineEnd (name : List Char) : List Char :=
  if name.getLast? == some '\n' then name.dropLast else name

/-- At least one character of the same line stands between `start` and `ending`, which closes
the name or comes before its last line end. -/
def isBetween (start ending : String) (name : List Char) : Bool :=
  [name, withoutLineEnd name].any fun n =>
    start.toList.isPrefixOf n && ending.toList.isSuffixOf n &&
      start.length + ending.length < n.length &&
      (n.drop start.length).all (· != '\n')

def hasEnding (ending : String) (name : List Char) : Bool :=
  [name, withoutLineEnd name].any fun n =>
    ending.toList.isSuffixOf n &&
      match (n.take (n.length - ending.length)).getLast? with
      | some c => c != '\n'
      | none => false

def looksLikeTest (path : String) : Bool :=
  let p := Path.ofString path
  let name := p.name.toList
  p.parts.dropLast.contains "__tests__" || hasDottedMark name || isBetween "test_" ".py" name ||
    hasEnding "_test.py" name || hasEnding "_test.go" name

def bareStem (name : String) : String := Text.lower (Path.ofString name).stem

/-- What a test's name says about the file that it tests: the stem in lower case, without the
mark of a test. -/
def testedStem (name : String) : String :=
  let base := (bareStem name).toList
  match [".test", ".spec", "_test"].find? fun m => m.toList.isSuffixOf base with
  | some m => String.ofList (base.take (base.length - m.length))
  | none =>
    if "test_".toList.isPrefixOf base then String.ofList (base.drop 5) else String.ofList base

def scriptSuffixes : List String := [".js", ".jsx", ".ts", ".tsx"]

def conventionalTests (path : String) : List String :=
  let p := Path.ofString path
  let dir := p.parent
  let place (name : String) : String := (dir.child name).text
  let placeIn (folder name : String) : String := ((dir.child folder).child name).text
  let probes := match Language.ofPath? path with
    | some .ecmascript =>
      let suffixes := p.suffix :: scriptSuffixes.filter (· != p.suffix)
      ([".test", ".spec"].flatMap fun mark => suffixes.flatMap fun e =>
        let name := p.stem ++ mark ++ e
        place name :: ["__tests__", "test", "tests"].map (placeIn · name)) ++
      suffixes.map fun e => placeIn "__tests__" (p.stem ++ e)
    | some .python =>
      ["test_" ++ p.stem ++ ".py", p.stem ++ "_test.py"].flatMap fun name =>
        place name :: ["test", "tests"].map (placeIn · name)
    | some .go => [place (p.stem ++ "_test.go")]
    | none => [".test", ".spec"].map fun mark => place (p.stem ++ mark ++ p.suffix)
  probes.eraseDups

end ChangeImpact.Evidence
