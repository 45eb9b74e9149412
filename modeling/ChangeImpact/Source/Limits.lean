import ChangeImpact.Source.Listing

/-!
# Limits of a disk

A disk does not take every question. No file can be opened by a path with a NUL character in it,
a path may be too long to be looked up, and a file cannot be read up to a number of bytes for
which there is no room. A question about a path with a NUL character, other than to open it, is
answered like one about a place where nothing lies. How much room there is, and how deep a
recursion may go, is a matter of the machine; every result holds on any of them.
-/

namespace ChangeImpact

/-- `memory` is the least number of bytes for which there is no room. The others say how deep a
recursion goes: over the JSON that is read, over a value that is shown, and over the folders of a
tree that is drawn. -/
structure Machine where
  memory : Nat
  nesting : Nat
  showing : Nat
  drawing : Nat
  /-- What the program itself writes can be read. -/
  sixteen_le_nesting : 16 ≤ nesting

theorem Machine.nesting_pos (m : Machine) : 0 < m.nesting :=
  Nat.lt_of_lt_of_le (by decide) m.sixteen_le_nesting

def Machine.usual : Machine := ⟨Nat.pow 2 36, 980, 980, 980, by decide⟩

inductive DiskFault where
  | nullCharacter
  | tooLong (path : Path)
  | negativeSize
  | beyondWord
  | beyondMemory
  /-- A file that is listed for a repository lies outside its root. -/
  | outside (file root : Path)
  deriving Repr, DecidableEq

namespace DiskFault

def message : DiskFault → String
  | nullCharacter => "embedded null byte"
  | tooLong path => "[Errno 36] File name too long: " ++ Text.Quoted.quote path.text
  | negativeSize => "read length must be non-negative or -1"
  | beyondWord => "cannot fit 'int' into an index-sized integer"
  | beyondMemory => ""
  | outside file root =>
    Text.Quoted.quote file.text ++ " is not in the subpath of " ++ Text.Quoted.quote root.text ++
      " OR one path is relative and the other is absolute."

/-- A fault of a path or a number as it is written, and not of the machine. -/
def isOfValue : DiskFault → Bool
  | nullCharacter | negativeSize | outside _ _ => true
  | tooLong _ | beyondWord | beyondMemory => false

end DiskFault

namespace Source

def overhead : Int := 33

def sizeFault? (m : Machine) (limit : Int) : Option DiskFault :=
  if limit < -Int.pow 2 63 || Int.pow 2 63 ≤ limit then some .beyondWord
  else if limit < -1 then some .negativeSize
  else if Int.pow 2 63 - 1 - overhead < limit then some .beyondWord
  else if m.memory ≤ limit then some .beyondMemory
  else none

def lookFault? (disk : Tree) (p : Path) : Option DiskFault :=
  if disk.refuses p then some (.tooLong p) else none

/-- What keeps the file at `path` in the repository at `root` from being read, other than that
it is not there or cannot be opened. -/
def readFault? (m : Machine) (disk : Tree) (root : Path) (limit : Int) (path : String) :
    Option DiskFault :=
  if (root.child path).holdsNull then some .nullCharacter
  else if isFileIn disk root path then sizeFault? m limit
  else none

end Source

def ifNoFault {α : Type} (fault : Option DiskFault) (result : α) : Except DiskFault α :=
  match fault with
  | some e => .error e
  | none => .ok result

end ChangeImpact
