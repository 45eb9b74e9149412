import ChangeImpact.Proofs.Change.Faithful

/-!
# Sections and their faces

The face of a section is its path, its status and the path that the file had before. It comes from
the first line and from the header above the first hunk; what is read behind a hunk header can
only make the whole unreadable, or begin another section.
-/

namespace ChangeImpact.Diff

open Text

def pathMark : List Char := " b/".toList

theorem lastPath_cons (c : Char) (r : List Char) : lastPath (c :: r) =
    if (lastPath r).length < r.length then lastPath r
    else (after? pathMark (c :: r)).getD (c :: r) := by
  rw [lastPath]
  split
  · rfl
  · rw [pathMark]
    cases after? " b/".toList (c :: r) <;> rfl

theorem lastPath_of_notMarked {t : List Char} (h : ¬ pathMark <:+: t) : lastPath t = t := by
  induction t with
  | nil => rfl
  | cons c r ih =>
    have hr : ¬ pathMark <:+: r := fun hr => h (List.infix_cons hr)
    have hhere : after? pathMark (c :: r) = none := by
      rw [Option.eq_none_iff_forall_ne_some]
      intro t ht
      exact h ⟨[], t, by simpa using (after?_eq_some.mp ht).symm⟩
    rw [lastPath_cons, ih hr, if_neg (Nat.lt_irrefl _), hhere, Option.getD_none]

theorem length_lastPath_of_marked {t : List Char} (h : pathMark <:+: t) :
    (lastPath t).length < t.length := by
  induction t with
  | nil => exact absurd (List.infix_nil.mp h) (by decide)
  | cons c r ih =>
    rw [lastPath_cons]
    split
    next hlater => exact Nat.lt_succ_of_lt hlater
    next hlater =>
      rcases List.infix_cons_iff.mp h with hhere | hr
      · obtain ⟨t, ht⟩ := hhere
        rw [after?_eq_some.mpr ht.symm, Option.getD_some, ← ht, List.length_append]
        exact Nat.lt_add_of_pos_left (by decide)
      · exact absurd (ih hr) hlater

theorem lastPath_append_of_lt {t : List Char} (h : (lastPath t).length < t.length)
    (s : List Char) : lastPath (s ++ t) = lastPath t := by
  induction s with
  | nil => rfl
  | cons c r ih =>
    have hlater : (lastPath (r ++ t)).length < (r ++ t).length := by
      rw [ih, List.length_append]
      exact Nat.lt_add_left _ h
    rw [List.cons_append, lastPath_cons, if_pos hlater, ih]

theorem lastPath_append (s t : List Char) : lastPath (s ++ pathMark ++ t) = lastPath t := by
  by_cases h : pathMark <:+: t
  · exact lastPath_append_of_lt (length_lastPath_of_marked h) _
  · have hslash : ¬ pathMark <:+: '/' :: t := fun hm => by
      rcases List.infix_cons_iff.mp hm with hp | ht
      exacts [absurd (List.cons_prefix_cons.mp hp).1 (by decide), h ht]
    have hletter : ¬ pathMark <:+: 'b' :: '/' :: t := fun hm => by
      rcases List.infix_cons_iff.mp hm with hp | ht
      exacts [absurd (List.cons_prefix_cons.mp hp).1 (by decide), hslash ht]
    have hhere : lastPath (pathMark ++ t) = t := by
      change lastPath (' ' :: 'b' :: '/' :: t) = t
      rw [lastPath_cons, lastPath_of_notMarked hletter, if_neg (Nat.lt_irrefl _)]
      rfl
    have hshort : (lastPath (pathMark ++ t)).length < (pathMark ++ t).length := by
      rw [hhere, List.length_append]
      exact Nat.lt_add_of_pos_left (by decide)
    rw [List.append_assoc, lastPath_append_of_lt hshort, hhere, lastPath_of_notMarked h]

theorem lastPath_eq_iff {t : List Char} : lastPath t = t ↔ ¬ pathMark <:+: t := by
  refine ⟨fun heq hm => ?_, lastPath_of_notMarked⟩
  exact absurd (length_lastPath_of_marked hm) (by rw [heq]; exact Nat.lt_irrefl _)

def IsCounted (s : List Char) : Prop :=
  ∀ os oc ns nc, header? s = some ((os, oc), (ns, nc)) → ∃ a b c k,
    number os = .ok a ∧ count oc = .ok b ∧ number ns = .ok c ∧ count nc = .ok k

theorem exists_readLines_iff (d : FileDiff) (open_ : Option Hunk) (ls : List (List Char)) :
    (∃ e, readLines d open_ ls = .ok e) ↔ ∀ s ∈ ls, IsCounted s := by
  induction ls generalizing d open_ with
  | nil => simp [readLines]
  | cons s ls ih =>
    rw [List.forall_mem_cons]
    cases hs : header? s with
    | none =>
      have hcounted : IsCounted s := fun _ _ _ _ heq => by rw [hs] at heq; cases heq
      cases open_ with
      | none => rw [readLines, hs]; exact (ih _ _).trans (and_iff_right hcounted).symm
      | some g => rw [readLines, hs]; exact (ih _ _).trans (and_iff_right hcounted).symm
    | some v =>
      obtain ⟨⟨os, oc⟩, ns, nc⟩ := v
      have hcounted : IsCounted s ↔ ∃ a b c k,
          number os = .ok a ∧ count oc = .ok b ∧ number ns = .ok c ∧ count nc = .ok k := by
        constructor
        · exact fun h => h os oc ns nc hs
        · intro h os' oc' ns' nc' heq
          obtain ⟨⟨rfl, rfl⟩, rfl, rfl⟩ := by simpa [hs] using heq
          exact h
      simp only [readLines_header hs, hcounted]
      constructor
      · intro h
        obtain ⟨e, a, b, c, k, ha, hb, hc, hk, hrest⟩ := h
        exact ⟨⟨a, b, c, k, ha, hb, hc, hk⟩, (ih _ _).mp ⟨e, hrest⟩⟩
      · intro h
        obtain ⟨⟨a, b, c, k, ha, hb, hc, hk⟩, hls⟩ := h
        obtain ⟨e, hrest⟩ := (ih (close d open_) (some ⟨a, b, c, k, []⟩)).mpr hls
        exact ⟨e, a, b, c, k, ha, hb, hc, hk, hrest⟩

def face (d : FileDiff) : String × ChangeStatus × Option String := (d.path, d.status, d.oldPath)

theorem face_close (d : FileDiff) (open_ : Option Hunk) : face (close d open_) = face d := by
  cases open_ <;> rfl

theorem face_of_readLines {d e : FileDiff} {g : Hunk} {ls : List (List Char)}
    (h : readLines d (some g) ls = .ok e) : face e = face d := by
  induction ls generalizing d g with
  | nil =>
    obtain rfl := Except.ok.inj h
    exact face_close d _
  | cons s ls ih =>
    cases hs : header? s with
    | none =>
      rw [readLines, hs] at h
      simp only [addLine_eq] at h
      have hface := ih h
      exact hface
    | some v =>
      obtain ⟨⟨os, oc⟩, ns, nc⟩ := v
      obtain ⟨a, b, c, k, -, -, -, -, hrest⟩ := (readLines_header hs).mp h
      exact (ih hrest).trans (face_close d _)

theorem face_of_readLines_hunks {d e : FileDiff} {hunks : List WrittenHunk}
    (h : readLines d none (hunks.flatMap WrittenHunk.read) = .ok e) : face e = face d := by
  cases hunks with
  | nil =>
    obtain rfl := Except.ok.inj h
    rfl
  | cons g hunks =>
    rw [List.flatMap_cons, WrittenHunk.read, List.cons_append,
      readLines_header (header?_numbersText g _)] at h
    obtain ⟨a, b, c, k, -, -, -, -, hrest⟩ := h
    exact face_of_readLines hrest

theorem isCounted_numbersText (h : WrittenHunk) (rest : List Char) :
    IsCounted (h.numbersText ++ rest) ↔ h.Numbered := by
  rw [IsCounted, header?_numbersText]
  simp only [Option.some.injEq, Prod.mk.injEq, WrittenHunk.Numbered]
  constructor
  · intro hcounted
    obtain ⟨a, b, c, k, ha, hb, hc, hk⟩ := hcounted _ _ _ _ ⟨⟨rfl, rfl⟩, rfl, rfl⟩
    exact ⟨(number_digits.mp ha).1, (count_countText.mp hb).1, (number_digits.mp hc).1,
      (count_countText.mp hk).1⟩
  · intro hn _ _ _ _ heq
    obtain ⟨⟨rfl, rfl⟩, rfl, rfl⟩ := heq
    obtain ⟨ha, hb, hc, hk⟩ := hn
    exact ⟨_, _, _, _, number_digits.mpr ⟨ha, rfl⟩, count_countText.mpr ⟨hb, rfl⟩,
      number_digits.mpr ⟨hc, rfl⟩, count_countText.mpr ⟨hk, rfl⟩⟩

theorem isCounted_of_none {s : List Char} (h : header? s = none) : IsCounted s := by
  intro _ _ _ _ heq
  rw [h] at heq
  cases heq

/-- The numbers of a hunk can be read, and no line into which its lines are cut begins a file or a
hunk whose numbers cannot be read. -/
structure WrittenHunk.Contained (h : WrittenHunk) : Prop where
  numbered : h.Numbered
  begins_none : ∀ s ∈ h.strays, isFirst s = false
  counted : ∀ s ∈ h.strays, IsCounted s

theorem isCounted_body {f : WrittenFile} : (∀ s ∈ f.body, IsCounted s) ↔
    ∀ h ∈ f.hunks, h.Numbered ∧ ∀ s ∈ h.strays, IsCounted s := by
  have hheaders : ∀ s ∈ f.headers, IsCounted s := fun s hs =>
    isCounted_of_none (f.headers_plain s hs).2
  simp only [WrittenFile.body, List.forall_mem_append, List.forall_mem_flatMap, WrittenHunk.read,
    List.forall_mem_cons, isCounted_numbersText, and_iff_right hheaders]
  refine forall₂_congr fun h _ => and_congr_right fun _ => ?_
  refine ⟨fun hall s hs => ?_, fun hall s hs => ?_⟩
  · exact hall s (WrittenHunk.mem_body.mpr (.inl hs))
  · rcases WrittenHunk.mem_body.mp hs with hs | ⟨l, -, rfl⟩
    exacts [hall s hs, isCounted_of_none (header?_mark _ _)]

theorem read_eq_singleton {f : WrittenFile} {d : FileDiff} : read (render [f]) = .ok [d] ↔
    (∀ s ∈ f.body, isFirst s = false) ∧ readSection (f.firstLine, f.body) = .ok d := by
  have hsection (hfirst : ∀ s ∈ f.body, isFirst s = false) :
      read (render [f]) = .ok [d] ↔ readSection (f.firstLine, f.body) = .ok d := by
    rw [read_render_eq_ok (List.forall_mem_singleton.mpr hfirst), List.forall₂_cons]
    exact and_iff_left .nil
  constructor
  · intro hread
    have hlength := hread
    rw [read, lines_render, mapM_eq_ok] at hlength
    have hcount := hlength.length_eq
    rw [length_sections, List.flatMap_singleton, List.countP_cons, isFirst_firstLine, if_pos rfl,
      List.length_singleton, Nat.add_eq_right, List.countP_eq_zero] at hcount
    have hfirst : ∀ s ∈ f.body, isFirst s = false := fun s hs => by simpa using hcount s hs
    exact ⟨hfirst, (hsection hfirst).mp hread⟩
  · intro h
    obtain ⟨hfirst, hread⟩ := h
    exact (hsection hfirst).mpr hread

end ChangeImpact.Diff
