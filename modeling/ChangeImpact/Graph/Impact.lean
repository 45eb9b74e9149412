import ChangeImpact.Graph.Basic
import ChangeImpact.Decimal.Digits

/-!
# Impact

The search from each changed file outwards against the imports. Its dependents are direct; what
imports them, level by level up to a depth, is indirect and belongs to the changed file whose
search meets it first. All searches share what has been seen, so that no file is listed twice
among the indirect ones and cycles end by themselves.
-/

namespace ChangeImpact

structure Impact where
  changed : List String := []
  direct : List (String × List String) := []
  indirect : List (String × List String) := []
  depths : List (String × Int) := []
  allAffected : List String := []
  maxDepth : Int := 2
  deriving Repr, DecidableEq

namespace Impact

def directOf (r : Impact) (path : String) : List String := (r.direct.lookup path).getD []

def indirectOf (r : Impact) (path : String) : List String := (r.indirect.lookup path).getD []

def depthOf (r : Impact) (path : String) : Int := (r.depths.lookup path).getD 0

def totalDirect (r : Impact) : Nat := (r.direct.flatMap (·.2)).eraseDups.length

def totalIndirect (r : Impact) : Nat := (r.indirect.flatMap (·.2)).eraseDups.length

def totalAffected (r : Impact) : Nat := r.allAffected.length

end Impact

structure NegativeDepth where
  depth : Int
  deriving Repr, DecidableEq

def NegativeDepth.message (e : NegativeDepth) : String :=
  "max_depth must be >= 0, got " ++ Decimal.ofInt e.depth

namespace Impact

/-- The files of the list not seen before, each once, and what has been seen after them. -/
def fresh (seen : List String) : List String → List String × List String
  | [] => ([], seen)
  | p :: r =>
    if seen.contains p then fresh seen r
    else
      let (found, seen) := fresh (p :: seen) r
      (p :: found, seen)

/-- The files met in at most `levels` further levels, with their depths. -/
def search (g : ImportGraph) : Nat → Nat → List String → List String →
    List (String × Int) × List String
  | 0, _, _, seen => ([], seen)
  | _ + 1, _, [], seen => ([], seen)
  | levels + 1, depth, frontier, seen =>
    let (next, seen) := fresh seen (frontier.flatMap g.dependentsOf)
    let (more, seen) := search g levels (depth + 1) next seen
    (next.map (fun p => (p, ((depth + 1 : Nat) : Int))) ++ more, seen)

def searchAll (g : ImportGraph) (levels : Nat) (seen : List String) :
    List String → List (String × List (String × Int))
  | [] => []
  | p :: r =>
    let (found, seen) := search g levels 0 (g.dependentsOf p) seen
    (p, found) :: searchAll g levels seen r

end Impact

def ImportGraph.affected (g : ImportGraph) (levels : Nat) (changed : List String) : Impact :=
  let changed := changed.eraseDups
  let direct := changed.map fun p => (p, g.dependentsOf p)
  let found := Impact.searchAll g levels (changed ++ direct.flatMap (·.2)) changed
  let indirect := found.map fun (p, ds) => (p, ds.map (·.1))
  { changed
    direct
    indirect
    depths := found.flatMap (·.2)
    allAffected := (changed ++ direct.flatMap (·.2) ++ indirect.flatMap (·.2)).eraseDups
    maxDepth := levels }

def ImportGraph.impactOf (g : ImportGraph) (maxDepth : Int) (changed : List String) :
    Except NegativeDepth Impact :=
  if maxDepth < 0 then .error ⟨maxDepth⟩ else .ok (g.affected maxDepth.toNat changed)

end ChangeImpact
