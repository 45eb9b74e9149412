import ChangeImpact.Path.Basic

/-!
# Specifiers

A specifier names a module relative to the file that imports it (`./x`, `../x`, and the dotted
form `.x` of Python), from the root of the repository (`/x`), or outside of the repository. A
normalised relative specifier stands for several files; `possibleFiles` lists them in the order
of preference.
-/

namespace ChangeImpact.Imports

open Text

def isRelative (specifier : String) : Bool :=
  match specifier.toList with
  | '.' :: _ => true
  | '/' :: _ => true
  | _ => false

def dotted? (s : List Char) : Option (Nat × List Char) :=
  let dots := (s.takeWhile (· == '.')).length
  let rest := s.dropWhile (· == '.')
  let names := if rest.getLast? == some '\n' then rest.dropLast else rest
  if dots == 0 || names.any (fun c => !(isWord c || c == '.')) then none
  else some (dots, names)

def upward : Nat → List Char
  | 0 => []
  | 1 => ['.', '/']
  | n + 2 => (List.replicate (n + 1) ['.', '.', '/']).flatten

def hasPathForm (s : List Char) : Bool :=
  ["./", "../", "/"].any fun p => p.toList.isPrefixOf s

def normalise (specifier : String) : String :=
  let s := specifier.toList
  if hasPathForm s then specifier
  else match dotted? s with
    | some (dots, names) =>
      String.ofList (upward dots ++ names.map fun c => if c == '.' then '/' else c)
    | none => specifier

def extensions : List String :=
  [".ts", ".tsx", ".js", ".jsx", ".mjs", ".cjs", ".vue", ".svelte", ".py", ".pyi", ".go"]

def indexFiles : List String := extensions.map ("index" ++ ·) ++ ["__init__.py"]

/-- The files that a path may mean: itself, with an ending, or as a directory by the index
file in it. The root is a directory only. -/
def possibleFiles (base : String) : List String :=
  if base == "." || base == "" then indexFiles
  else base :: extensions.map (base ++ ·) ++ indexFiles.map (Path.joinText base ·)

end ChangeImpact.Imports
