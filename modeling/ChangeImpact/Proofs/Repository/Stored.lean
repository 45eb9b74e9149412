import ChangeImpact.Proofs.Json.Checking
import ChangeImpact.Proofs.Source.Tree
import ChangeImpact.Proofs.Text.Utf8
import ChangeImpact.Repository.Stored

/-!
# Stored texts

A file is found where it was written, if no parent mark stands in its path, and it is looked up
without complaint where its path and the names in it are short enough.
-/

namespace ChangeImpact.Tree

open Text.Utf8 (Bytes)

variable {new : Tree} {parts : List String}

theorem lookup_setEntry (name : String) (t : Tree) (es : List (String × Tree)) :
    (setEntry name t es).lookup name = some t := by
  induction es with
  | nil => simp [setEntry]
  | cons e r ih =>
    obtain ⟨n, u⟩ := e
    rw [setEntry]
    split
    next h => simp [eq_of_beq h]
    next h =>
      have hne : (name == n) = false := beq_false_of_ne fun heq => h (beq_iff_eq.mpr heq.symm)
      rw [List.lookup_cons, hne]
      exact ih

theorem find_put (new : Tree) (parts : List String) (t : Tree) :
    (put new parts t).find parts = some new := by
  induction parts generalizing t with
  | nil => rfl
  | cons p r ih => rw [put, find, lookup_setEntry, Option.bind_some, ih]

theorem at?_write {p : Path} (h : ".." ∉ p.parts) (t : Tree) (content : Bytes) :
    (t.write p content).at? p = some (.file content) := by
  rw [at?, follow_eq_find h, write, find_put]

theorem asksOverlongName_eq_false (h : ∀ p ∈ parts, p.utf8ByteSize ≤ nameLimit)
    (trail : List Tree) : asksOverlongName trail parts = false := by
  induction parts generalizing trail with
  | nil => rfl
  | cons p r ih =>
    obtain ⟨hp, hr⟩ := List.forall_mem_cons.mp h
    rcases trail with - | ⟨- | es, above⟩
    · rfl
    · rfl
    · rw [asksOverlongName, decide_eq_false (Nat.not_lt.mpr hp), Bool.false_or]
      split
      · exact ih hr _
      · cases es.lookup p with
        | none => rfl
        | some t => exact ih hr _

theorem refuses_eq_false {p : Path} (short : ∀ q ∈ p.parts, q.utf8ByteSize ≤ nameLimit)
    (path : p.text.utf8ByteSize < pathLimit) (t : Tree) : t.refuses p = false := by
  rw [refuses, asksOverlongName_eq_false short, decide_eq_false (Nat.not_le.mpr path),
    Bool.or_false, Bool.and_false]

theorem short_of_taken {p : Path} {t : Tree} (named : p.holdsNull = false)
    (taken : t.refuses p = false) : p.text.utf8ByteSize < pathLimit := by
  rw [refuses, named, Bool.not_false, Bool.true_and, Bool.or_eq_false_iff] at taken
  exact Nat.not_le.mp (of_decide_eq_false taken.1)

end ChangeImpact.Tree

/-!
## Reading stored texts

A file that holds the UTF-8 of a text is read as the text, where the disk takes its path.
-/

namespace ChangeImpact.Repository

variable {disk : Tree} {file : Path}

theorem readStored_encode {s : String} (named : file.holdsNull = false)
    (taken : disk.refuses file = false)
    (stored : disk.at? file = some (.file (Text.Utf8.encode s.toList))) :
    readStored disk file = .ok s := by
  rw [readStored, named, taken, stored]
  simp only [Bool.false_eq_true, if_false, Text.Utf8.decode?_encode, String.ofList_toList]

end ChangeImpact.Repository
