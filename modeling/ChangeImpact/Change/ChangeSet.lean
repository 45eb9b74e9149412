import ChangeImpact.Json.Checked

/-!
# Change sets

The changed files between two revisions in order, each with its line counts and its status.
-/

namespace ChangeImpact

inductive ChangeStatus where
  | added
  | modified
  | deleted
  | renamed
  | binary
  deriving Repr, DecidableEq

namespace ChangeStatus

def name : ChangeStatus → String
  | added => "added"
  | modified => "modified"
  | deleted => "deleted"
  | renamed => "renamed"
  | binary => "binary"

def named? (s : String) : Option ChangeStatus :=
  [added, modified, deleted, renamed, binary].find? (·.name == s)

end ChangeStatus

structure ChangedFile where
  path : String
  additions : Int := 0
  deletions : Int := 0
  status : ChangeStatus := .modified
  deriving Repr, DecidableEq

def ChangedFile.totalLines (f : ChangedFile) : Int := f.additions + f.deletions

structure ChangeSet where
  files : List ChangedFile := []
  deriving Repr, DecidableEq

namespace ChangeSet

def ofPaths (paths : List String) : ChangeSet := ⟨paths.map fun p => { path := p }⟩

def paths (c : ChangeSet) : List String := (c.files.map (·.path)).eraseDups

def linesAdded (c : ChangeSet) : Int := (c.files.map (·.additions)).foldr (· + ·) 0

def linesDeleted (c : ChangeSet) : Int := (c.files.map (·.deletions)).foldr (· + ·) 0

def filesWith (c : ChangeSet) (statuses : List ChangeStatus) : Nat :=
  (c.files.filter fun f => statuses.contains f.status).length

def filesAdded (c : ChangeSet) : Nat := c.filesWith [.added]

def filesModified (c : ChangeSet) : Nat := c.filesWith [.modified, .renamed, .binary]

def filesDeleted (c : ChangeSet) : Nat := c.filesWith [.deleted]

def isEmpty (c : ChangeSet) : Bool := c.files.isEmpty

open Json

def checkFile : Check ChangedFile := checkObject fun fs =>
  ChangedFile.mk <$> required fs "path" checkText
    <*> optional fs "additions" 0 checkInt
    <*> optional fs "deletions" 0 checkInt
    <*> optional fs "status" .modified (checkNamed ChangeStatus.named?)

def check : Check ChangeSet := checkObject fun fs =>
  ChangeSet.mk <$> optional fs "files" [] (checkTuple checkFile)

def fileJson (f : ChangedFile) : Fields :=
  [("path", .text f.path), ("additions", .int f.additions), ("deletions", .int f.deletions),
    ("status", .text f.status.name)]

def toJson (c : ChangeSet) : Json :=
  .object [("files", .list (c.files.map fun f => .object (fileJson f)))]

end ChangeSet

end ChangeImpact
