import ChangeImpact.Settings
import ChangeImpact.Source.Limits

/-!
# Repositories

A repository is a folder of a disk of some machine, with the settings that hold in it. It is found
from any place inside by walking up to the first folder that carries the mark of one.
-/

namespace ChangeImpact

structure Repository where
  machine : Machine
  disk : Tree
  root : Path
  settings : Settings

namespace Repository

def isFile (r : Repository) (path : String) : Bool := Source.isFileIn r.disk r.root path

def settingsFolder : String := ".impactlens"

def isTop (disk : Tree) (p : Path) : Bool :=
  disk.isFolderAt (p.child settingsFolder) || (disk.at? (p.child ".git")).isSome

def outward (parts : List String) : List (List String) :=
  (List.range (parts.length + 1)).map fun n => parts.take (parts.length - n)

def firstTop (disk : Tree) : List Path → Except DiskFault (Option Path)
  | [] => .ok none
  | p :: r =>
    match Source.lookFault? disk (p.child settingsFolder) with
    | some e => .error e
    | none => if isTop disk p then .ok (some p) else firstTop disk r

def findRoot (disk : Tree) (start : Path) : Except DiskFault (Option Path) :=
  if start.holdsNull then .error .nullCharacter
  else firstTop disk ((outward start.resolve.parts).map (Path.mk .root))

end Repository

end ChangeImpact
