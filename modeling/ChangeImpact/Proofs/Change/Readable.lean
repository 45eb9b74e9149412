import ChangeImpact.Proofs.Change.Sections

/-!
# Which diffs can be read

The only thing in a diff that can be wrong is a number of a hunk header, and it can only be wrong
by having too many digits. `exists_read_iff_headerNumbers` says this of a whole text.
-/

namespace ChangeImpact.Diff

open Text

def headerNumbers (line : List Char) : List (List Char) :=
  match header? line with
  | none => []
  | some ((oldStart, oldCount), (newStart, newCount)) =>
    [oldStart, newStart] ++ oldCount.toList ++ newCount.toList

def IsNumeral (s : List Char) : Prop := s ≠ [] ∧ ∀ c ∈ s, isDigit c = true

section Numerals

variable {s r start : List Char} {count : Option (List Char)}

theorem isNumeral_of_digits? (h : digits? s = some (start, r)) : IsNumeral start := by
  rw [digits?] at h
  split at h
  next => cases h
  next hne =>
    obtain ⟨rfl, -⟩ := by simpa using h
    exact ⟨by simpa using hne, fun c hc => List.mem_takeWhile_imp hc⟩

theorem isNumeral_of_range? (h : range? s = some (start, count, r)) :
    IsNumeral start ∧ ∀ n ∈ count, IsNumeral n := by
  obtain ⟨⟨first, rest⟩, hfirst, h⟩ := Option.bind_eq_some_iff.mp h
  dsimp only at h
  split at h
  next n r' hn =>
    obtain ⟨rfl, rfl, rfl⟩ := by simpa [pure] using h
    obtain ⟨rest', -, hrest⟩ := Option.bind_eq_some_iff.mp hn
    exact ⟨isNumeral_of_digits? hfirst, fun _ hmem =>
      Option.mem_some.mp hmem ▸ isNumeral_of_digits? hrest⟩
  next =>
    obtain ⟨rfl, rfl, rfl⟩ := by simpa [pure] using h
    exact ⟨isNumeral_of_digits? hfirst, nofun⟩

theorem isNumeral_of_header? {os ns : List Char} {oc nc : Option (List Char)}
    (h : header? s = some ((os, oc), (ns, nc))) :
    (IsNumeral os ∧ ∀ n ∈ oc, IsNumeral n) ∧ IsNumeral ns ∧ ∀ n ∈ nc, IsNumeral n := by
  obtain ⟨_, -, h⟩ := Option.bind_eq_some_iff.mp h
  obtain ⟨⟨os', oc', _⟩, hold, h⟩ := Option.bind_eq_some_iff.mp h
  obtain ⟨_, -, h⟩ := Option.bind_eq_some_iff.mp h
  obtain ⟨⟨ns', nc', _⟩, hnew, h⟩ := Option.bind_eq_some_iff.mp h
  obtain ⟨_, -, h⟩ := Option.bind_eq_some_iff.mp h
  obtain ⟨⟨rfl, rfl⟩, rfl, rfl⟩ := by simpa [pure] using h
  exact ⟨isNumeral_of_range? hold, isNumeral_of_range? hnew⟩

theorem exists_number_iff (h : IsNumeral s) :
    (∃ n, number s = .ok n) ↔ s.length ≤ digitLimit := by
  rw [number, readInteger_digits h.1 h.2]
  split
  next hle => exact iff_of_true ⟨_, rfl⟩ hle
  next hlt => exact iff_of_false (by simp [Except.mapError]) hlt

theorem exists_count_iff (h : ∀ n ∈ count, IsNumeral n) :
    (∃ n, Diff.count count = .ok n) ↔ ∀ n ∈ count, n.length ≤ digitLimit := by
  cases count with
  | none => exact iff_of_true ⟨1, rfl⟩ nofun
  | some n =>
    simp only [Option.mem_some_iff, forall_eq']
    exact exists_number_iff (h n rfl)

theorem isCounted_iff : IsCounted s ↔ ∀ n ∈ headerNumbers s, n.length ≤ digitLimit := by
  cases hs : header? s with
  | none => exact iff_of_true (isCounted_of_none hs) (by simp [headerNumbers, hs])
  | some v =>
    obtain ⟨⟨os, oc⟩, ns, nc⟩ := v
    obtain ⟨⟨hos, hoc⟩, hns, hnc⟩ := isNumeral_of_header? hs
    have hnumbers : (∃ a b c k, number os = .ok a ∧ Diff.count oc = .ok b ∧ number ns = .ok c ∧
        Diff.count nc = .ok k) ↔ ∀ n ∈ headerNumbers s, n.length ≤ digitLimit := by
      simp only [headerNumbers, hs, List.forall_mem_append, List.forall_mem_cons,
        Option.mem_toList]
      rw [← exists_number_iff hos, ← exists_number_iff hns]
      simp only [← Option.mem_def]
      rw [← exists_count_iff hoc, ← exists_count_iff hnc]
      constructor
      · intro h
        obtain ⟨a, b, c, k, ha, hb, hc, hk⟩ := h
        exact ⟨⟨⟨⟨a, ha⟩, ⟨c, hc⟩, List.forall_mem_nil _⟩, ⟨b, hb⟩⟩, ⟨k, hk⟩⟩
      · intro h
        obtain ⟨⟨⟨⟨a, ha⟩, ⟨c, hc⟩, -⟩, ⟨b, hb⟩⟩, ⟨k, hk⟩⟩ := h
        exact ⟨a, b, c, k, ha, hb, hc, hk⟩
    rw [← hnumbers, IsCounted, hs]
    constructor
    · exact fun h => h os oc ns nc rfl
    · intro h os' oc' ns' nc' heq
      obtain ⟨⟨rfl, rfl⟩, rfl, rfl⟩ := by simpa using heq
      exact h

end Numerals

theorem exists_read_iff_headerNumbers {text : String} : (∃ ds, read text = .ok ds) ↔
    ∀ group ∈ sections (lines text.toList), ∀ line ∈ group.2, ∀ n ∈ headerNumbers line,
      n.length ≤ digitLimit := by
  simp only [read, exists_mapM_iff, readSection, exists_readLines_iff, isCounted_iff]

end ChangeImpact.Diff
