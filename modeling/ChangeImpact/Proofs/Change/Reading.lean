import ChangeImpact.Change.Diff
import Mathlib.Data.List.Basic

/-!
# Reading the lines of a diff

What each kind of line adds to a file: a header opens a hunk, a line behind it goes into the hunk
and may count as added or removed, and a line before all hunks changes no count. Each first line of
a section begins a file.
-/

namespace ChangeImpact.Diff

def counted (c : Char) (ls : List (List Char)) : Nat := ls.countP (·.head? == some c)

@[simp] theorem counted_append (c : Char) (ls rs : List (List Char)) :
    counted c (ls ++ rs) = counted c ls + counted c rs := List.countP_append

@[simp] theorem counted_cons (c : Char) (s : List Char) (ls : List (List Char)) :
    counted c (s :: ls) = counted c ls + if s.head? = some c then 1 else 0 := by
  rw [counted, List.countP_cons]
  simp [counted]

@[simp] theorem counted_nil (c : Char) : counted c [] = 0 := rfl

theorem counted_eq_zero {c : Char} {ls : List (List Char)} :
    counted c ls = 0 ↔ ∀ s ∈ ls, s.head? ≠ some c := by
  simp [counted, List.countP_eq_zero]

theorem addLine_eq (d : FileDiff) (g : Hunk) (s : List Char) :
    addLine d g s =
      ({ d with
          addedLines := d.addedLines + counted '+' [s]
          deletedLines := d.deletedLines + counted '-' [s] },
        { g with lines := g.lines ++ [String.ofList s] }) := by
  cases s with
  | nil => rfl
  | cons c r =>
    by_cases hadd : c = '+'
    · simp [addLine, hadd]
    · by_cases hrem : c = '-'
      · simp [addLine, hrem]
      · unfold addLine
        split <;> simp_all

theorem readLines_append (d : FileDiff) (g : Hunk) {ls : List (List Char)}
    (h : ∀ s ∈ ls, header? s = none) (r : List (List Char)) :
    readLines d (some g) (ls ++ r) =
      readLines
        { d with
          addedLines := d.addedLines + counted '+' ls
          deletedLines := d.deletedLines + counted '-' ls }
        (some { g with lines := g.lines ++ ls.map String.ofList }) r := by
  induction ls generalizing d g with
  | nil => simp [counted]
  | cons s ls ih =>
    obtain ⟨hs, hls⟩ := List.forall_mem_cons.mp h
    rw [List.cons_append, readLines, hs]
    simp only [addLine_eq, ih _ _ hls, counted_cons, counted_nil, List.map_cons, List.append_assoc,
      List.singleton_append, Nat.zero_add, Nat.add_assoc, Nat.add_comm]

theorem readLines_header {d e : FileDiff} {open_ : Option Hunk} {s : List Char}
    {r : List (List Char)} {os ns : List Char} {oc nc : Option (List Char)}
    (h : header? s = some ((os, oc), (ns, nc))) :
    readLines d open_ (s :: r) = .ok e ↔ ∃ a b c k, number os = .ok a ∧ count oc = .ok b ∧
      number ns = .ok c ∧ count nc = .ok k ∧
        readLines (close d open_) (some ⟨a, b, c, k, []⟩) r = .ok e := by
  rw [readLines.eq_def]
  simp only [h]
  cases number os <;> cases count oc <;> cases number ns <;> cases count nc <;> simp

theorem readLines_headers (d : FileDiff) {ls : List (List Char)} (h : ∀ s ∈ ls, header? s = none)
    (r : List (List Char)) :
    readLines d none (ls ++ r) = readLines (ls.foldl applyHeader d) none r := by
  induction ls generalizing d with
  | nil => rfl
  | cons s ls ih =>
    obtain ⟨hs, hls⟩ := List.forall_mem_cons.mp h
    rw [List.cons_append, readLines, hs, List.foldl_cons]
    exact ih _ hls

theorem applyHeader_counts (d : FileDiff) (s : List Char) :
    (applyHeader d s).hunks = d.hunks ∧ (applyHeader d s).addedLines = d.addedLines ∧
      (applyHeader d s).deletedLines = d.deletedLines := by
  unfold applyHeader
  simp only []
  repeat' split
  all_goals exact ⟨rfl, rfl, rfl⟩

theorem foldl_applyHeader_counts (d : FileDiff) (ls : List (List Char)) :
    (ls.foldl applyHeader d).hunks = d.hunks ∧ (ls.foldl applyHeader d).addedLines = d.addedLines ∧
      (ls.foldl applyHeader d).deletedLines = d.deletedLines := by
  induction ls generalizing d with
  | nil => exact ⟨rfl, rfl, rfl⟩
  | cons s ls ih =>
    obtain ⟨hh, ha, hd⟩ := ih (applyHeader d s)
    obtain ⟨hh', ha', hd'⟩ := applyHeader_counts d s
    exact ⟨hh.trans hh', ha.trans ha', hd.trans hd'⟩

theorem length_hunks_of_readLines {d e : FileDiff} {open_ : Option Hunk} {ls : List (List Char)}
    (h : readLines d open_ ls = .ok e) :
    e.hunks.length =
      d.hunks.length + open_.toList.length + ls.countP fun s => (header? s).isSome := by
  -- An open hunk counts already: the next header closes it and opens another one.
  induction ls generalizing d open_ with
  | nil =>
    obtain rfl := Except.ok.inj h
    cases open_ <;> simp [close]
  | cons s ls ih =>
    cases hs : header? s with
    | none =>
      cases open_ with
      | none =>
        rw [readLines, hs] at h
        rw [List.countP_cons, ih h, (applyHeader_counts d s).1]
        simp [hs]
      | some g =>
        rw [readLines, hs] at h
        simp only [addLine_eq] at h
        rw [List.countP_cons, ih h]
        simp [hs]
    | some v =>
      obtain ⟨⟨os, oc⟩, ns, nc⟩ := v
      obtain ⟨a, b, c, k, -, -, -, -, hrest⟩ := (readLines_header hs).mp h
      rw [List.countP_cons, ih hrest]
      cases open_ <;> simp [close, hs] <;> omega

def isFirst (s : List Char) : Bool := sectionMark.isPrefixOf s

theorem length_sections (ls : List (List Char)) : (sections ls).length = ls.countP isFirst := by
  induction ls with
  | nil => rfl
  | cons s ls ih =>
    rw [sections, List.countP_cons, isFirst]
    split <;> simp_all

theorem sections_append {ls : List (List Char)} (h : ∀ s ∈ ls, isFirst s = false)
    (r : List (List Char)) : sections (ls ++ r) = sections r := by
  induction ls with
  | nil => rfl
  | cons s ls ih =>
    obtain ⟨hs, hls⟩ := List.forall_mem_cons.mp h
    rw [isFirst] at hs
    rw [List.cons_append, sections, hs]
    exact ih hls

end ChangeImpact.Diff
