import ChangeImpact.Imports.Specifier

/-!
# Resolving specifiers

A specifier seen from a file leads to the first of its candidates that lies inside the
repository and, where files are to be verified, is one of its files.
-/

namespace ChangeImpact.Imports

def staysInside (path : String) : Bool :=
  path != "" && path != "." && path != ".." && !"../".toList.isPrefixOf path.toList

structure Resolver where
  isFile : String → Bool
  verify : Bool

namespace Resolver

def withoutQuery (specifier : String) : String :=
  String.ofList (specifier.toList.takeWhile (· != '?'))

def base (specifier referencer : String) : String :=
  let spec := normalise (withoutQuery specifier)
  match spec.toList with
  | '/' :: r => Path.normalText (String.ofList (r.dropWhile (· == '/')))
  | _ => Path.normalText (Path.joinText (Path.directoryText referencer) spec)

/-- The paths inside the repository that `specifier` may mean in `referencer`, in the order of
preference. -/
def candidates (specifier referencer : String) : List String :=
  ((possibleFiles (base specifier referencer)).map Path.normalText).filter staysInside

/-- The candidates that are found to be no files on the way to the file that is meant. -/
def passedOver (r : Resolver) (specifier referencer : String) : List String :=
  if r.verify && isRelative specifier then
    (candidates specifier referencer).takeWhile (!r.isFile ·)
  else []

/-- The file that `specifier` means in `referencer`; a file that means itself means nothing. -/
def resolve? (r : Resolver) (specifier referencer : String) : Option String :=
  if isRelative specifier then
    match (candidates specifier referencer).find? fun path => !r.verify || r.isFile path with
    | some path => if path == referencer then none else some path
    | none => none
  else none

end Resolver

end ChangeImpact.Imports
