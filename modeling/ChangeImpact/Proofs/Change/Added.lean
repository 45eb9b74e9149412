import ChangeImpact.Change.Diff
import Mathlib.Data.List.Basic

/-!
# The added lines of a hunk

The lines of a hunk that were not removed and are no notes are those of the new file, numbered on
from the first. The added lines are listed in their order with the numbers that they have there:
`numberedAdditions_lists`.
-/

namespace ChangeImpact.Hunk

variable {h : Hunk} {n start : Int} {text line : String} {ls : List String}

/-- The line has a number in the new file: it was neither removed nor is it a note. -/
def isNew (line : String) : Bool := line.toList.head? != some '-' && line.toList.head? != some '\\'

def newNumber (h : Hunk) (i : Nat) : Int := h.newStart + (h.lines.take i).countP isNew

theorem exists_getElem?_cons {α : Type} {a b : α} {l : List α} {P : Nat → Prop} :
    (∃ i : Nat, (a :: l)[i]? = some b ∧ P i) ↔
      (a = b ∧ P 0) ∨ ∃ i : Nat, l[i]? = some b ∧ P (i + 1) := by
  constructor
  · rintro ⟨_ | i, hi, hP⟩
    · exact .inl ⟨by simpa using hi, hP⟩
    · exact .inr ⟨i, by simpa using hi, hP⟩
  · rintro (⟨rfl, hP⟩ | ⟨i, hi, hP⟩)
    · exact ⟨0, rfl, hP⟩
    · exact ⟨i + 1, by simpa using hi, hP⟩

theorem eq_plus_iff : line = "+" ++ text ↔ line.toList = '+' :: text.toList := by
  rw [← String.toList_inj, String.toList_append]
  rfl

theorem add_countP_take (start : Int) (line : String) (ls : List String) (i : Nat) :
    start + ((line :: ls).take (i + 1)).countP isNew =
      (start + if isNew line then 1 else 0) + (ls.take i).countP isNew := by
  rw [List.take_succ_cons, List.countP_cons]
  split <;> omega

theorem marked?_plus : marked? '+' line = some text ↔ line = "+" ++ text := by
  rw [eq_plus_iff, marked?]
  cases line.toList with
  | nil => simp
  | cons c r => simp [← String.toList_inj]

theorem isNew_of_marked? (h : marked? '+' line = some text) : isNew line = true := by
  rw [isNew, eq_plus_iff.mp (marked?_plus.mp h)]
  rfl

def numbered? (start : Int) (placed : String × Nat) : Option (Int × String) :=
  (marked? '+' placed.1).map fun text => (start + placed.2, text)

theorem numbered?_eq_some {placed : String × Nat} : numbered? start placed = some (n, text) ↔
    placed.1 = "+" ++ text ∧ n = start + placed.2 := by
  simp only [numbered?, Option.map_eq_some_iff, Prod.mk.injEq, marked?_plus]
  constructor
  · intro h
    obtain ⟨_, hline, rfl, rfl⟩ := h
    exact ⟨hline, rfl⟩
  · intro h
    exact ⟨text, h.1, h.2.symm, rfl⟩

/-- A line of the new file moves those behind it by one, and another line moves none. -/
theorem numberFrom_cons (n : Int) (line : String) (ls : List String) : numberFrom n (line :: ls) =
    if isNew line then (numbered? n (line, 0)).toList ++ numberFrom (n + 1) ls
    else numberFrom n ls := by
  rw [numberFrom, isNew, numbered?, marked?]
  cases line.toList with
  | nil => rfl
  | cons c r =>
    by_cases hadd : c = '+'
    · simp [hadd]
    · by_cases hrem : c = '-'
      · simp [hrem]
      · by_cases hnote : c = '\\'
        · simp [hnote]
        · simp [hadd, hrem, hnote]

theorem mem_numberFrom : (n, text) ∈ numberFrom start ls ↔
    ∃ i : Nat, ls[i]? = some ("+" ++ text) ∧ n = start + (ls.take i).countP isNew := by
  induction ls generalizing start with
  | nil => simp [numberFrom]
  | cons line ls ih =>
    rw [numberFrom_cons, exists_getElem?_cons]
    simp only [add_countP_take, List.take_zero, List.countP_nil, Int.natCast_zero, Int.add_zero]
    split
    next hnew =>
      rw [List.mem_append, Option.mem_toList, numbered?_eq_some, ih]
      simp
    next hold =>
      have hnot : line ≠ "+" ++ text := fun heq => hold (isNew_of_marked? (marked?_plus.mpr heq))
      simp [ih, hnot]

theorem mem_numberedAdditions : (n, text) ∈ h.numberedAdditions ↔
    ∃ i : Nat, h.lines[i]? = some ("+" ++ text) ∧ n = h.newNumber i :=
  mem_numberFrom

theorem numbered?_zero (start : Int) (k : Nat) (line : String) :
    numbered? (start + k) (line, 0) = numbered? start (line, k) := by
  simp [numbered?]

theorem numberFrom_eq (start : Int) (k : Nat) (ls : List String) : numberFrom (start + k) ls =
    ((ls.filter isNew).zipIdx k).filterMap (numbered? start) := by
  induction ls generalizing k with
  | nil => rfl
  | cons line ls ih =>
    have hnext : numberFrom (start + k + 1) ls =
        ((ls.filter isNew).zipIdx (k + 1)).filterMap (numbered? start) := by
      rw [← ih (k + 1), Int.natCast_succ, Int.add_assoc]
    rw [numberFrom_cons, List.filter_cons]
    split
    · rw [hnext, List.zipIdx_cons, List.filterMap_cons, numbered?_zero]
      cases numbered? start (line, k) <;> rfl
    · exact ih k

theorem numberedAdditions_eq (h : Hunk) : h.numberedAdditions =
    (h.lines.filter isNew).zipIdx.filterMap (numbered? h.newStart) := by
  rw [numberedAdditions, ← numberFrom_eq h.newStart 0, Int.natCast_zero, Int.add_zero]

/-- The pairs list the added lines among those of the new file, of which the first has number
`start`, in their order and with their numbers. -/
structure Lists (start : Int) (new : List String) (pairs : List (Int × String)) : Prop where
  mem_iff : ∀ n text, (n, text) ∈ pairs ↔ ∃ i : Nat, new[i]? = some ("+" ++ text) ∧ n = start + i
  increasing : pairs.Pairwise fun a b => a.1 < b.1

theorem pairwise_zipIdx {α : Type} (l : List α) (k : Nat) :
    (l.zipIdx k).Pairwise fun a b => a.2 < b.2 := by
  induction l generalizing k with
  | nil => exact .nil
  | cons a l ih =>
    rw [List.zipIdx_cons, List.pairwise_cons]
    exact ⟨fun _ hb => List.le_snd_of_mem_zipIdx hb, ih (k + 1)⟩

theorem lists_numbered (start : Int) (new : List String) :
    Lists start new (new.zipIdx.filterMap (numbered? start)) where
  mem_iff n text := by
    simp only [List.mem_filterMap, numbered?_eq_some, Prod.exists, List.mem_zipIdx_iff_getElem?]
    constructor
    · intro h
      obtain ⟨line, i, hi, rfl, hn⟩ := h
      exact ⟨i, hi, hn⟩
    · intro h
      obtain ⟨i, hi, hn⟩ := h
      exact ⟨_, i, hi, rfl, hn⟩
  increasing := by
    refine List.Pairwise.filterMap _ (fun a a' hlt b hb b' hb' => ?_) (pairwise_zipIdx new 0)
    rw [(numbered?_eq_some.mp hb).2, (numbered?_eq_some.mp hb').2]
    omega

theorem map_snd_numbered (start : Int) (k : Nat) (new : List String) :
    ((new.zipIdx k).filterMap (numbered? start)).map (·.2) = new.filterMap (marked? '+') := by
  induction new generalizing k with
  | nil => rfl
  | cons line new ih =>
    rw [List.zipIdx_cons, List.filterMap_cons, List.filterMap_cons, numbered?]
    cases marked? '+' line with
    | none => exact ih (k + 1)
    | some text => exact congrArg (text :: ·) (ih (k + 1))

/-- The added lines of a hunk are listed with the numbers that they have among the lines of the new
file. -/
theorem numberedAdditions_lists (h : Hunk) :
    Lists h.newStart (h.lines.filter isNew) h.numberedAdditions ∧
      h.numberedAdditions.map (·.2) = h.added := by
  rw [numberedAdditions_eq]
  refine ⟨lists_numbered h.newStart _, ?_⟩
  rw [map_snd_numbered, List.filterMap_filter]
  refine List.filterMap_congr fun line _ => ?_
  split
  next => rfl
  next hold =>
    rw [eq_comm, Option.eq_none_iff_forall_ne_some]
    exact fun text htext => hold (isNew_of_marked? htext)

example :
    numberedAdditions ⟨5, 3, 5, 3, [" a", "-b", "+c", " d", "+e"]⟩ = [(6, "c"), (8, "e")] := by
  decide

end ChangeImpact.Hunk
