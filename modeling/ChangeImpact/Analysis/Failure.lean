import ChangeImpact.Change.Git
import ChangeImpact.Graph.Impact
import ChangeImpact.Repository.Stored
import ChangeImpact.Risk.Assess

/-!
# Failures of an analysis

Everything that keeps an analysis from giving a report, with the text that a user sees. Most
failures are foreseen: they say what in the repository or in its settings is wrong. The others
come from a value that no check looks at beforehand, and of these some are about the range of a
number or the attributes of a value.
-/

namespace ChangeImpact

open Risk (AssessError)

inductive Failure where
  | outsidePath (path : String)
  | unreachable (root : Path)
  | notFolder (start : Path)
  | git (e : GitError)
  | call (e : CallFault)
  | disk (e : DiskFault)
  | number (e : Text.IntegerError)
  | stored (e : StoredError)
  | depth (e : NegativeDepth)
  | assess (e : AssessError)
  deriving Repr, DecidableEq

namespace Failure

def message : Failure → String
  | outsidePath path => "Changed path is not repository-relative: " ++ path
  | unreachable root => "Repository root is not reachable: " ++ root.text
  | notFolder start => "Repository root is not a directory: " ++ start.text
  | git e => e.message
  | call e => e.message
  | disk e => e.message
  | number e => e.message
  | stored e => e.message
  | depth e => e.message
  | assess e => e.message

def isForeseen : Failure → Bool
  | outsidePath _ | unreachable _ | notFolder _ | git _ => true
  | call _ | disk _ | number _ | depth _ => false
  | stored e => e.isForeseen
  | assess (.placeholder _ _) => true
  | assess _ => false

def isUntold : Failure → Bool
  | call (.system _) => true
  | assess (.template (.layout e)) => e.isOverflow || e == .beyondMemory
  | assess (.template e) => e.isOfAttribute
  | disk e => !e.isOfValue
  | stored e => match e.fault with
    | .disk fault => !e.isForeseen && !fault.isOfValue
    | .tooDeep => true
    | _ => false
  | _ => false

end Failure

end ChangeImpact
