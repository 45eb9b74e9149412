import ChangeImpact.Path.Basic
import ChangeImpact.Text.LowerCase

/-!
# Languages

The families of languages whose imports are read, told by the ending of a file's name.
-/

namespace ChangeImpact

inductive Language where
  | ecmascript
  | python
  | go
  deriving Repr, DecidableEq

namespace Language

def name : Language → String
  | ecmascript => "ecmascript"
  | python => "python"
  | go => "go"

def named? (s : String) : Option Language :=
  [ecmascript, python, go].find? (·.name == s)

def suffixes : Language → List String
  | ecmascript =>
    [".js", ".jsx", ".mjs", ".cjs", ".ts", ".tsx", ".mts", ".cts", ".vue", ".svelte"]
  | python => [".py", ".pyi"]
  | go => [".go"]

def ofSuffix? (suffix : String) : Option Language :=
  [ecmascript, python, go].find? (·.suffixes.contains suffix)

def ofPath? (path : String) : Option Language :=
  ofSuffix? (Text.lower (Path.ofString path).suffix)

end Language

end ChangeImpact
