import ChangeImpact.Imports.EcmaScript
import ChangeImpact.Imports.Python
import ChangeImpact.Imports.Go
import ChangeImpact.Source.Language

/-!
# Extractors

For every language one extractor lists the specifiers that a text imports, in the order of the
text and with repetitions. An extractor can be replaced; one that is not supplied refuses.
-/

namespace ChangeImpact.Imports

def specifiers : Language → String → List String
  | .ecmascript, s => (EcmaScript.specifiers s.toList).map String.ofList
  | .python, s => (Python.specifiers s.toList).map String.ofList
  | .go, s => (Go.specifiers s.toList).map String.ofList

inductive ExtractError where
  | notSupplied
  deriving Repr, DecidableEq

abbrev Extractor := String → Except ExtractError (List String)

def Extractor.missing : Extractor := fun _ => .error .notSupplied

abbrev Extractors := Language → Extractor

def Extractors.standard : Extractors := fun l s => .ok (specifiers l s)

def Extractors.install (t : Extractors) (l : Language) (e : Extractor) : Extractors :=
  fun k => if k = l then e else t k

def Extractors.run (t : Extractors) (l : Option Language) (s : String) :
    Except ExtractError (List String) :=
  match l with
  | none => .ok []
  | some l => if s == "" then .ok [] else t l s

def ofText (l : Option Language) (s : String) : List String :=
  match l with
  | none => []
  | some l => specifiers l s

end ChangeImpact.Imports
