import ChangeImpact.Graph.Basic
import ChangeImpact.Imports.Extractor
import ChangeImpact.Imports.Resolver
import ChangeImpact.Settings
import ChangeImpact.Source.Limits

/-!
# Building the import graph

All files of a repository in a known language are read in the order of their paths, each up to
a limit, and every import that leads to another file is recorded. How many workers read the files
does not show in the graph.
-/

namespace ChangeImpact

structure BuildStats where
  filesFound : Nat
  filesScanned : Nat
  filesSkipped : Nat
  edges : Nat
  targets : Nat
  deriving Repr, DecidableEq

structure Build where
  graph : ImportGraph
  stats : BuildStats
  sources : List String

namespace Build

def readSources (settings : IndexSettings) (disk : Tree) (root : Path) (files : List String) :
    List (String × Option String) :=
  (files.filter fun f => (Language.ofPath? f).isSome).map fun f =>
    (f, Source.read? disk root settings.maxFileBytes f)

def edgesOf (resolver : Imports.Resolver) (path : String) (text : String) :
    List (String × Option String) :=
  (Imports.ofText (Language.ofPath? path) text).map fun specifier =>
    (path, resolver.resolve? specifier path)

def filesOf (settings : IndexSettings) (disk : Tree) (root : Path) : List String :=
  Source.collect (Source.shutBelow disk root) settings.ignored ((disk.at? root).getD .empty)

def run (settings : IndexSettings) (disk : Tree) (root : Path) : Build :=
  let files := filesOf settings disk root
  let resolver : Imports.Resolver := ⟨files.contains, settings.verifyImports⟩
  let sources := readSources settings disk root files
  let edges := sources.flatMap fun (path, text) => edgesOf resolver path (text.getD "")
  let (graph, recorded) := ImportGraph.empty.recordAll edges
  let skipped := (sources.filter (·.2.isNone)).length
  { graph
    stats :=
      { filesFound := files.length
        filesScanned := sources.length - skipped
        filesSkipped := skipped
        edges := recorded
        targets := graph.size }
    sources := sources.map (·.1) }

def fault? (m : Machine) (settings : IndexSettings) (disk : Tree) (root : Path) :
    Option DiskFault :=
  (readSources settings disk root (filesOf settings disk root)).findSome? fun (path, _) =>
    Source.readFault? m disk root settings.maxFileBytes path

def attempt (m : Machine) (settings : IndexSettings) (disk : Tree) (root : Path) :
    Except DiskFault Build :=
  ifNoFault (fault? m settings disk root) (run settings disk root)

def progress (b : Build) : List (String × Nat × Nat) :=
  b.sources.zipIdx.map fun (path, i) => (path, i + 1, b.sources.length)

end Build

end ChangeImpact
