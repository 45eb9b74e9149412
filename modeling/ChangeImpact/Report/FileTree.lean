import ChangeImpact.Text.Split

/-!
# Trees of paths

Paths drawn as a tree: a folder before what lies in it, with branches that show which entry of
a folder is its last. The paths are sorted, and entries stand where their name first occurs.
-/

namespace ChangeImpact.Report

inductive PathTree where
  | node (entries : List (String × PathTree))

namespace PathTree

def entries : PathTree → List (String × PathTree)
  | .node es => es

def setEntry (name : String) (t : PathTree) : List (String × PathTree) → List (String × PathTree)
  | [] => [(name, t)]
  | (n, u) :: r => if n == name then (n, t) :: r else (n, u) :: setEntry name t r

def insert : List String → PathTree → PathTree
  | [], t => t
  | p :: r, t =>
    .node (setEntry p (insert r ((t.entries.lookup p).getD (.node []))) t.entries)

def branch (isRoot isLast : Bool) : String × String :=
  if isRoot then ("", "")
  else if isLast then ("└── ", "    ")
  else ("├── ", "│   ")

mutual

def draw (isRoot : Bool) (margin : String) : PathTree → List String
  | .node es => drawEntries isRoot margin es

def drawEntries (isRoot : Bool) (margin : String) : List (String × PathTree) → List String
  | [] => []
  | (name, t) :: r =>
    let (mark, below) := branch isRoot r.isEmpty
    let line := margin ++ mark ++ name
    (if t.entries.isEmpty then [line]
      else (line ++ "/") :: draw false (if isRoot then "" else margin ++ below) t) ++
      drawEntries isRoot margin r

end

end PathTree

def pathTree (paths : List String) : PathTree :=
  (paths.mergeSort fun a b => a ≤ b).foldl (fun t p => t.insert (Text.fields '/' p)) (.node [])

def fileTree (paths : List String) : List String := (pathTree paths).draw true ""

end ChangeImpact.Report
