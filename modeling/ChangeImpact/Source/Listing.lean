import ChangeImpact.Source.Tree
import ChangeImpact.Source.Language

/-!
# Listing files

A worklist of folders still to be scanned, each with the names that lead to it. A scan finds the
files of a folder and puts its folders off. Which folders are entered hangs on their name and on
how deep they lie; a folder that cannot be opened is passed over.
-/

namespace ChangeImpact.Source

structure Unscanned where
  depth : Nat
  parts : List String
  entries : List (String × Tree)

namespace Unscanned

def putOff (enter : Nat → String → Bool) (f : Unscanned) (listed : List (String × Tree)) :
    List Unscanned :=
  listed.filterMap fun e =>
    match e with
    | (name, .folder es) =>
      if enter f.depth name then some ⟨f.depth + 1, f.parts ++ [name], es⟩ else none
    | (_, .file _) => none

def filesIn (f : Unscanned) (listed : List (String × Tree)) : List (List String) :=
  listed.filterMap fun e =>
    match e with
    | (name, .file _) => some (f.parts ++ [name])
    | (_, .folder _) => none

variable {enter : Nat → String → Bool} {f : Unscanned} {name : String}
  {r : List (String × Tree)}

@[simp] theorem putOff_nil : f.putOff enter [] = [] := rfl

@[simp] theorem putOff_file (content : Text.Utf8.Bytes) :
    f.putOff enter ((name, .file content) :: r) = f.putOff enter r := rfl

@[simp] theorem putOff_folder (es : List (String × Tree)) :
    f.putOff enter ((name, .folder es) :: r) =
      if enter f.depth name then ⟨f.depth + 1, f.parts ++ [name], es⟩ :: f.putOff enter r
      else f.putOff enter r := by
  by_cases h : enter f.depth name <;> simp [putOff, h]

@[simp] theorem filesIn_nil : f.filesIn [] = [] := rfl

@[simp] theorem filesIn_file (content : Text.Utf8.Bytes) :
    f.filesIn ((name, .file content) :: r) = (f.parts ++ [name]) :: f.filesIn r := rfl

@[simp] theorem filesIn_folder (es : List (String × Tree)) :
    f.filesIn ((name, .folder es) :: r) = f.filesIn r := rfl

end Unscanned

def workSize : List Unscanned → Nat
  | [] => 0
  | f :: work => 1 + Tree.sizes f.entries + workSize work

@[simp] theorem workSize_cons (f : Unscanned) (work : List Unscanned) :
    workSize (f :: work) = 1 + Tree.sizes f.entries + workSize work := rfl

@[simp] theorem workSize_append (work more : List Unscanned) :
    workSize (work ++ more) = workSize work + workSize more := by
  induction work with
  | nil => exact (Nat.zero_add _).symm
  | cons f work ih => rw [List.cons_append, workSize_cons, workSize_cons, ih, ← Nat.add_assoc]

@[simp] theorem workSize_reverse (work : List Unscanned) :
    workSize work.reverse = workSize work := by
  induction work with
  | nil => rfl
  | cons f work ih =>
    rw [List.reverse_cons, workSize_append, ih, workSize_cons, workSize_cons, workSize,
      Nat.add_zero, Nat.add_comm]

theorem workSize_putOff_le (enter : Nat → String → Bool) (f : Unscanned)
    (listed : List (String × Tree)) : workSize (f.putOff enter listed) ≤ Tree.sizes listed := by
  induction listed with
  | nil => exact Nat.le_refl 0
  | cons e r ih =>
    obtain ⟨name, t⟩ := e
    cases t with
    | file content =>
      rw [Unscanned.putOff_file, Tree.sizes]
      exact Nat.le_trans ih (Nat.le_add_left _ _)
    | folder es =>
      rw [Unscanned.putOff_folder, Tree.sizes, Tree.size]
      split
      · rw [workSize_cons]
        exact Nat.add_le_add_left ih _
      · exact Nat.le_trans ih (Nat.le_add_left _ _)

/-- The files below the folders of `work`, where no folder that is `shut` can be opened. The first
folder is scanned first, and of those it puts off the last one next. -/
def listFiles (shut : List String → Bool) (enter : Nat → String → Bool) (work : List Unscanned) :
    List (List String) :=
  match work with
  | [] => []
  | f :: rest =>
    if shut f.parts then listFiles shut enter rest
    else f.filesIn f.entries ++ listFiles shut enter ((f.putOff enter f.entries).reverse ++ rest)
termination_by workSize work
decreasing_by
  · rw [workSize_cons]
    omega
  · have h := workSize_putOff_le enter f f.entries
    rw [workSize_append, workSize_reverse, workSize_cons]
    omega

def sorted (paths : List String) : List String := paths.mergeSort fun a b => a ≤ b

def collect (shut : List String → Bool) (ignored : List String) (root : Tree) : List String :=
  sorted ((listFiles shut (fun _ name => !ignored.contains name) [⟨0, [], root.entries⟩]).map
    Path.ofParts)

def shutBelow (disk : Tree) (p : Path) (parts : List String) : Bool := disk.refuses (p.down parts)

/-- A file as it is read: its bytes cut to a limit, which a negative number does not set, and
decoded with every invalid part replaced. -/
def decode (limit : Int) (content : Text.Utf8.Bytes) : String :=
  let bytes := if limit < 0 then content else content.take limit.toNat
  String.ofList (Text.Utf8.decodeLossy bytes)

def isFileIn (disk : Tree) (root : Path) (path : String) : Bool :=
  !disk.refuses (root.child path) && disk.isFileAt (root.child path)

def read? (disk : Tree) (root : Path) (limit : Int) (path : String) : Option String :=
  let p := root.child path
  if disk.refuses p then none
  else match disk.at? p with
    | some (.file content) => some (decode limit content)
    | _ => none

theorem read?_file {disk : Tree} {root : Path} {limit : Int} {path : String}
    {content : Text.Utf8.Bytes} (hfile : disk.at? (root.child path) = some (.file content))
    (hopen : disk.refuses (root.child path) = false) :
    read? disk root limit path = some (decode limit content) := by
  simp only [read?, hopen, Bool.false_eq_true, if_false, hfile]

end ChangeImpact.Source
