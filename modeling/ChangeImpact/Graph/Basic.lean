/-!
# The import graph

For every file the files it imports and the files that import it, each list and the files
themselves in the order in which the edges were recorded. An edge to nothing, to the empty path
or from a file to itself is not recorded, and a repeated edge changes nothing.
-/

namespace ChangeImpact

structure ImportNode where
  path : String
  imports : List String
  dependents : List String
  deriving Repr, DecidableEq

structure ImportGraph where
  nodes : List ImportNode
  deriving Repr, DecidableEq

namespace ImportGraph

def empty : ImportGraph := ⟨[]⟩

def node? (g : ImportGraph) (path : String) : Option ImportNode :=
  g.nodes.find? (·.path == path)

def dependentsOf (g : ImportGraph) (path : String) : List String :=
  match g.node? path with
  | some n => n.dependents
  | none => []

def importsOf (g : ImportGraph) (path : String) : List String :=
  match g.node? path with
  | some n => n.imports
  | none => []

/-- The graph with a node for `path`, behind the others if it is new. -/
def withNode (g : ImportGraph) (path : String) : ImportGraph :=
  match g.node? path with
  | some _ => g
  | none => ⟨g.nodes ++ [⟨path, [], []⟩]⟩

def modify (g : ImportGraph) (path : String) (f : ImportNode → ImportNode) : ImportGraph :=
  ⟨g.nodes.map fun n => if n.path == path then f n else n⟩

def connect (g : ImportGraph) (referencer target : String) : ImportGraph :=
  if (g.importsOf referencer).contains target then g
  else
    (((g.withNode referencer).withNode target).modify referencer
      fun n => { n with imports := n.imports ++ [target] }).modify target
      fun n => { n with dependents := n.dependents ++ [referencer] }

def isEdge (referencer target : String) : Bool := target != "" && target != referencer

def record (g : ImportGraph) (referencer : String) (target : Option String) :
    ImportGraph × Bool :=
  match target with
  | some t => if isEdge referencer t then (g.connect referencer t, true) else (g, false)
  | none => (g, false)

def recordAll (g : ImportGraph) : List (String × Option String) → ImportGraph × Nat
  | [] => (g, 0)
  | (r, t) :: rest =>
    let (g, counts) := g.record r t
    let (g, n) := recordAll g rest
    (g, if counts then n + 1 else n)

def targets (g : ImportGraph) : List String :=
  (g.nodes.filter (!·.dependents.isEmpty)).map (·.path)

def numEdges (g : ImportGraph) : Nat := (g.nodes.map (·.imports.length)).foldr (· + ·) 0

def size (g : ImportGraph) : Nat := g.targets.length

def contains (g : ImportGraph) (path : String) : Bool := !(g.dependentsOf path).isEmpty

def sortedDependents (g : ImportGraph) : List (String × List String) :=
  g.targets.map fun t => (t, (g.dependentsOf t).mergeSort fun a b => a ≤ b)

end ImportGraph

end ChangeImpact
