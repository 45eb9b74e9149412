import ChangeImpact.Proofs.Imports.Go.Grammar
import ChangeImpact.Proofs.Imports.Segments
import ChangeImpact.Proofs.Text.Words

/-!
# The imports of a block

The inside of a block is read up to the first closing parenthesis, though it stand in a comment or
in a path. A line before it gives its import, the line that it stands on gives one where the path
has ended, and the lines behind it give nothing.
-/

namespace ChangeImpact.Imports.Go

open Text

section Specs

variable {s rest : List Char}

theorem newline_notMem_of_inName {l : List Char} (h : ∀ c ∈ l, inName c = true) : '\n' ∉ l :=
  fun hmem => absurd (h _ hmem) (by decide)

theorem inName_of_isMargin {c : Char} (h : isMargin c = true) : inName c = false := by
  rcases isMargin_iff.mp h with rfl | rfl <;> decide

theorem inName_gap (g : Gap) (s : List Char) : ∀ c ∈ (g.text ++ s).head?, inName c = false := by
  intro c hc
  obtain ⟨d, hd, hmargin⟩ := g.head s
  obtain rfl := Option.some.inj (hd.symm.trans hc)
  exact inName_of_isMargin hmargin

theorem quoted?_path (e : Spec) (s : List Char) :
    quoted? ('"' :: (e.path ++ '"' :: s)) = some (e.path, s) := by
  have hquote : ∀ c ∈ ('"' :: s).head?, isPlain c = false := forall_head?_cons.mpr (by decide)
  have hpath : (e.path ++ '"' :: s).takeWhile (fun c => c != '"' && c != '\n') = e.path :=
    takeWhile_append_of_head e.isPlain hquote
  have hclosing : (e.path ++ '"' :: s).dropWhile (fun c => c != '"' && c != '\n') = '"' :: s :=
    dropWhile_append_of_head e.isPlain hquote
  simp only [quoted?, hpath, hclosing]
  exact if_neg (by simpa using e.ne_nil)

theorem quoted?_open (hs : ∀ c ∈ s, isPlain c = true) (hrest : ∀ c ∈ rest.head?, c = '\n') :
    quoted? ('"' :: (s ++ rest)) = none := by
  have hend : ∀ c ∈ rest.head?, isPlain c = false := fun c hc => by
    rw [hrest c hc]
    decide
  have hopen : (s ++ rest).dropWhile (fun c => c != '"' && c != '\n') = rest :=
    dropWhile_append_of_head hs hend
  simp only [quoted?, hopen]
  cases rest with
  | nil => exact ite_self none
  | cons c r =>
    obtain rfl := hrest c rfl
    exact ite_self none

theorem dottedName?_of_head (hs : ∀ c ∈ s.head?, inName c = false) : dottedName? s = none := by
  have hspan : s.takeWhile inName = [] := takeWhile_append_of_head (List.forall_mem_nil _) hs
  exact if_pos (List.isEmpty_iff.mpr hspan)

theorem spec?_of_head (hs : ∀ c ∈ s.head?, inName c = false ∧ c ≠ '"') : spec? s = none := by
  rw [spec?, dottedName?_of_head fun c hc => (hs c hc).1]
  simp only
  cases s with
  | nil => rfl
  | cons c r =>
    unfold quoted?
    split
    next heq => exact absurd (List.cons.inj heq).1 (hs c rfl).2
    next => rfl

theorem Spec.spec?_opening (e : Spec) (s : List Char) :
    spec? (e.opening ++ '"' :: s) = quoted? ('"' :: s) := by
  have hquote : ∀ c ∈ ('"' :: s).head?, inName c = false := forall_head?_cons.mpr (by decide)
  rw [opening]
  cases e.renamed with
  | none =>
    rw [Option.elim_none, List.nil_append, spec?, dottedName?_of_head hquote]
  | some a =>
    have hname : dottedName? (a.name ++ (a.toPath.text ++ '"' :: s)) =
        some (a.name, a.toPath.text ++ '"' :: s) :=
      dottedName?_append a.ne_nil a.inName (inName_gap a.toPath _)
    rw [Option.elim_some, Alias.text, List.append_assoc, spec?, hname]
    simp only [margin?_gap a.toPath (forall_head?_cons.mpr (rfl : isMargin '"' = false)),
      Option.bind_some]

theorem Spec.spec?_text (e : Spec) (s : List Char) : spec? (e.text ++ s) = some (e.path, s) := by
  have htext : e.text ++ s = e.opening ++ '"' :: (e.path ++ '"' :: s) := by
    simp only [text, List.append_assoc, List.cons_append, List.nil_append]
  rw [htext, e.spec?_opening, quoted?_path]

theorem Alias.newline_notMem (a : Alias) : '\n' ∉ a.text := by
  rw [text, List.mem_append, not_or]
  exact ⟨newline_notMem_of_inName a.inName, a.toPath.newline_notMem⟩

theorem Spec.newline_notMem (e : Spec) : '\n' ∉ e.text := by
  have hopening : '\n' ∉ e.opening := by
    rw [opening]
    cases e.renamed with
    | none => exact List.not_mem_nil
    | some a => exact a.newline_notMem
  have hpath : '\n' ∉ e.path := fun h => absurd (e.isPlain _ h) (by decide)
  simp only [text, List.mem_append, List.mem_cons, List.not_mem_nil, not_or]
  exact ⟨hopening, by decide, hpath, by decide, not_false⟩

theorem Spec.opening_head (e : Spec) (s : List Char) :
    ∀ c ∈ (e.opening ++ '"' :: s).head?, inName c = true ∨ c = '"' := by
  rw [opening]
  cases e.renamed with
  | none => exact forall_head?_cons.mpr (.inr rfl)
  | some a =>
    obtain ⟨c, r, hname⟩ := List.exists_cons_of_ne_nil a.ne_nil
    rw [Option.elim_some, Alias.text, hname]
    exact forall_head?_cons.mpr (.inl (a.inName c (hname ▸ List.mem_cons_self)))

theorem isMargin_of_opens {c : Char} (h : inName c = true ∨ c = '"') : isMargin c = false := by
  rw [Bool.eq_false_iff]
  intro hmargin
  rcases h with h | rfl
  · rw [inName_of_isMargin hmargin] at h
    exact Bool.false_ne_true h
  · exact absurd hmargin (by decide)

end Specs

/-! ## Lines -/

section Bare

variable {before : Option Char} {s rest : List Char}

def Bare (s : List Char) : Prop := ∀ c ∈ (skipMargin s).head?, inName c = false ∧ c ≠ '"'

theorem bare_of_head (hs : ∀ c ∈ s.head?, isMargin c = false ∧ inName c = false ∧ c ≠ '"') :
    Bare s := by
  rw [Bare, skipMargin_of_head fun c hc => (hs c hc).1]
  exact fun c hc => (hs c hc).2

theorem bare_newline (hs : ∀ c ∈ s.head?, c = '\n') : Bare s :=
  bare_of_head fun c hc => by
    rw [hs c hc]
    decide

theorem bare_blanks {b : List Char} (hb : ∀ c ∈ b, isBlank c = true) (h : Bare s) :
    Bare (b ++ s) := by
  induction b with
  | nil => exact h
  | cons c r ih =>
    obtain ⟨hc, hr⟩ := List.forall_mem_cons.mp hb
    by_cases hmargin : isMargin c = true
    · rw [Bare, List.cons_append, skipMargin, List.dropWhile_cons_of_pos hmargin]
      exact ih hr
    · refine bare_of_head (forall_head?_cons.mpr ⟨Bool.eq_false_iff.mpr hmargin, ?_, ?_⟩)
      · rw [inName, isWord_of_isBlank hc, Bool.false_or, beq_eq_false_iff_ne]
        rintro rfl
        exact absurd hc (by decide)
      · rintro rfl
        exact absurd hc (by decide)

theorem LineEnd.bare (e : LineEnd) (h : Bare s) : Bare (e.text ++ s) := by
  rw [text, List.append_assoc]
  refine bare_blanks (fun c hc => (e.isBlank c hc).1) ?_
  cases e.comment with
  | none => exact h
  | some c => exact bare_of_head (forall_head?_cons.mpr (by decide))

theorem Indent.isBlank (i : Indent) : ∀ c ∈ i.text, isBlank c = true := by
  intro c hc
  rcases isMargin_iff.mp (i.isMargin c hc) with rfl | rfl <;> decide

theorem entry_atLines : AtLines entry := fun _ _ h =>
  if_neg (by rw [h]; exact Bool.false_ne_true)

theorem entry_of_spec? (h : spec? (skipMargin s) = none) : entry before s = none := by
  rw [entry, h]
  exact ite_self none

theorem entry_of_bare (h : Bare s) : entry before s = none := entry_of_spec? (spec?_of_head h)

end Bare

section Lines

variable {before : Option Char} {s rest : List Char}

theorem LineEnd.newline_notMem (e : LineEnd) : '\n' ∉ e.text := by
  rw [text, List.mem_append, not_or]
  refine ⟨fun h => (e.isBlank _ h).2 rfl, ?_⟩
  cases e.comment with
  | none => exact List.not_mem_nil
  | some c => simp [Comment.spelling, c.oneLine]

theorem Indent.newline_notMem (i : Indent) : '\n' ∉ i.text := fun h =>
  absurd (i.isMargin _ h) (by decide)

theorem Line.newline_notMem (l : Line) : '\n' ∉ l.text := by
  simp only [text, List.mem_append, not_or]
  refine ⟨l.indent.newline_notMem, ?_, l.ending.newline_notMem⟩
  cases l.spec with
  | none => exact List.not_mem_nil
  | some e => exact e.newline_notMem

theorem skipMargin_indent (i : Indent) (hs : ∀ c ∈ s.head?, isMargin c = false) :
    skipMargin (i.text ++ s) = s :=
  dropWhile_append_of_head i.isMargin hs

theorem Spec.head_text (e : Spec) (s : List Char) :
    ∀ c ∈ (e.text ++ s).head?, inName c = true ∨ c = '"' := by
  rw [text, List.append_assoc, List.cons_append]
  exact e.opening_head _

theorem entry_spec {i : Indent} {e : Spec} (hstart : atLineStart before = true)
    (s : List Char) : entry before ((i.text ++ e.text) ++ s) =
      some (e.path, (i.text ++ e.text).length) := by
  have hspec : spec? (skipMargin (i.text ++ (e.text ++ s))) = some (e.path, s) := by
    rw [skipMargin_indent i fun c hc => isMargin_of_opens (e.head_text s c hc), e.spec?_text]
  have hlength : (i.text ++ (e.text ++ s)).length - s.length = (i.text ++ e.text).length := by
    rw [← List.append_assoc, List.length_append, Nat.add_sub_cancel]
  rw [entry, if_pos hstart, List.append_assoc, hspec, ← hlength]
  rfl

def Line.found (l : Line) : List (Nat × List Char) := l.spec.toList.map fun e => (0, e.path)

theorem Line.finds (l : Line) (hstart : atLineStart before = true)
    (hrest : ∀ c ∈ rest.head?, c = '\n') : Finds entry before l.text rest l.found := by
  have hline := l.newline_notMem
  rw [text] at hline ⊢
  rw [found]
  cases hspec : l.spec with
  | none =>
    refine (entry_atLines.silent_line ?_ (entry_of_bare ?_)).finds
    · rwa [hspec] at hline
    · rw [Option.elim_none, List.nil_append, List.append_assoc]
      exact bare_blanks l.indent.isBlank (l.ending.bare (bare_newline hrest))
  | some e =>
    rw [hspec, Option.elim_some, ← List.append_assoc] at hline
    rw [Option.elim_some, ← List.append_assoc]
    have hne : l.indent.text ++ e.text ≠ [] := by simp [Spec.text]
    have hfind : Finds entry before (l.indent.text ++ e.text) (l.ending.text ++ rest)
        [(0, e.path)] := finds_of_find hne (entry_spec hstart _)
    exact hfind.append (entry_atLines.silent_line_behind hline hne).finds

end Lines

/-! ## Up to a closing parenthesis -/

section Cut

variable {before : Option Char} {s rest : List Char}

def cut (s : List Char) : List Char := s.takeWhile (· != ')')

theorem cut_append_of_notMem (h : ')' ∉ s) (t : List Char) : cut (s ++ t) = s ++ cut t :=
  takeWhile_ne_append h t

theorem cut_of_notMem (h : ')' ∉ s) : cut s = s := by
  have hall := cut_append_of_notMem h []
  rwa [List.append_nil, show cut [] = [] from rfl, List.append_nil] at hall

theorem cut_append_of_mem (h : ')' ∈ s) (t : List Char) : cut (s ++ t) = cut s := by
  obtain ⟨u, v, rfl, hu⟩ := List.eq_append_cons_of_mem h
  rw [List.append_assoc, cut_append_of_notMem hu, cut_append_of_notMem hu]
  rfl

theorem mem_of_mem_cut {c : Char} (h : c ∈ cut s) : c ∈ s := (List.takeWhile_sublist _).subset h

theorem LineEnd.exists_cut (e : LineEnd) : ∃ f : LineEnd, f.text = cut e.text := by
  have hblanks : ')' ∉ e.blanks := fun h => absurd (e.isBlank _ h).1 (by decide)
  cases hcomment : e.comment with
  | none =>
    refine ⟨e, (cut_of_notMem ?_).symm⟩
    rw [text, hcomment]
    simpa using hblanks
  | some c =>
    refine ⟨⟨e.blanks, e.isBlank, some ⟨cut c.text, fun h => c.oneLine (mem_of_mem_cut h)⟩⟩, ?_⟩
    rw [text, text, hcomment, cut_append_of_notMem hblanks]
    rfl

theorem Indent.paren_notMem (i : Indent) : ')' ∉ i.text := fun h =>
  absurd (i.isMargin _ h) (by decide)

theorem Line.exists_cut {l : Line} (h : l.IsRead) :
    ∃ m : Line, m.spec = l.spec ∧ m.text = cut l.text := by
  obtain ⟨f, hf⟩ := l.ending.exists_cut
  refine ⟨⟨l.indent, l.spec, f⟩, rfl, ?_⟩
  have hspec : ')' ∉ l.spec.elim [] Spec.text := by
    cases hspec : l.spec with
    | none => exact List.not_mem_nil
    | some e => exact h e hspec
  rw [text, text, cut_append_of_notMem l.indent.paren_notMem, cut_append_of_notMem hspec, hf]

theorem Spec.paren_notMem_opening (e : Spec) : ')' ∉ e.opening := by
  rw [opening]
  cases e.renamed with
  | none => exact List.not_mem_nil
  | some a =>
    rw [Option.elim_some, Alias.text, List.mem_append, not_or]
    refine ⟨fun h => absurd (a.inName _ h) (by decide), fun h => ?_⟩
    exact absurd (a.toPath.isMargin _ h) (by decide)

theorem Line.silent_cut {l : Line} (h : ¬ l.IsRead) : Silent entry before (cut l.text) [] := by
  obtain ⟨e, hspec, hparen⟩ : ∃ e ∈ l.spec, ')' ∈ e.text := by
    by_contra hnone
    exact h fun e he hmem => hnone ⟨e, he, hmem⟩
  have hpath : ')' ∈ e.path := by
    simpa [Spec.text, e.paren_notMem_opening] using hparen
  have hcut : cut l.text = l.indent.text ++ (e.opening ++ '"' :: cut e.path) := by
    have hquote : ')' ∉ e.opening ++ ['"'] := by simp [e.paren_notMem_opening]
    have htext : l.text = l.indent.text ++ ((e.opening ++ ['"']) ++
        (e.path ++ ('"' :: l.ending.text))) := by
      rw [Option.mem_def] at hspec
      simp [text, hspec, Spec.text]
    rw [htext, cut_append_of_notMem l.indent.paren_notMem, cut_append_of_notMem hquote,
      cut_append_of_mem hpath, List.append_assoc]
    rfl
  have hplain : ∀ c ∈ cut e.path, isPlain c = true := fun c hc => e.isPlain c (mem_of_mem_cut hc)
  have hopen : quoted? ('"' :: (cut e.path ++ [])) = none := quoted?_open hplain forall_head?_nil
  refine entry_atLines.silent_line (fun hmem => l.newline_notMem (mem_of_mem_cut hmem)) ?_
  rw [hcut, List.append_nil]
  refine entry_of_spec? ?_
  rw [skipMargin_indent l.indent fun c hc => isMargin_of_opens (e.opening_head _ c hc),
    e.spec?_opening]
  rwa [List.append_nil] at hopen

end Cut

/-! ## The lines of a block -/

section Block

variable {before : Option Char} {s rest : List Char} {found found' : List (Nat × List Char)}
  {paths paths' : List (List Char)} {isRead isRead' : Prop}

def Covers (found : List (Nat × List Char)) (paths : List (List Char)) (isRead : Prop) : Prop :=
  found.length ≤ paths.length ∧ (found.map (·.2) = paths ↔ isRead)

theorem Covers.congr (h : Covers found paths isRead) (hiff : isRead ↔ isRead') :
    Covers found paths isRead' :=
  ⟨h.1, h.2.trans hiff⟩

theorem Covers.shift (h : Covers found paths isRead) (n : Nat) :
    Covers (found.map fun f => (n + f.1, f.2)) paths isRead := by
  rw [Covers, List.length_map, List.map_map]
  exact h

theorem Covers.append (h : Covers found paths isRead) (h' : Covers found' paths' isRead') :
    Covers (found ++ found') (paths ++ paths') (isRead ∧ isRead') := by
  have hle : (found.map (·.2)).length ≤ paths.length := by simpa using h.1
  have hle' : (found'.map (·.2)).length ≤ paths'.length := by simpa using h'.1
  refine ⟨?_, ?_⟩
  · rw [List.length_append, List.length_append]
    exact Nat.add_le_add h.1 h'.1
  · rw [List.map_append, append_eq_append_iff_of_le hle hle', h.2, h'.2]

/-- Where further paths are lost, not all of them are found. -/
theorem Covers.lost (h : Covers found paths isRead) (paths' : List (List Char)) :
    Covers found (paths ++ paths') (isRead ∧ paths' = []) := by
  have hnone : Covers [] paths' (paths' = []) := ⟨Nat.zero_le _, eq_comm⟩
  have hall := h.append hnone
  rwa [List.append_nil] at hall

theorem pathsOf_singleton (l : Line) : pathsOf [l] = l.spec.toList.map Spec.path := by
  cases hspec : l.spec <;> simp [pathsOf, hspec]

theorem Line.covers_found (l : Line) : Covers l.found (pathsOf [l]) True := by
  simp [Covers, found, pathsOf_singleton]

theorem Line.placed_found (l : Line) : Placed l.text.length l.found := by
  rw [found]
  cases hspec : l.spec with
  | none => exact placed_nil _
  | some e =>
    exact placed_singleton (List.length_pos_of_ne_nil (by simp [text, hspec, Spec.text]))

theorem Line.covers_cut (l : Line) (hstart : atLineStart before = true) :
    ∃ found, Finds entry before (cut l.text) [] found ∧ Placed (cut l.text).length found ∧
      Covers found (pathsOf [l]) l.IsRead := by
  by_cases h : l.IsRead
  · obtain ⟨m, hspec, htext⟩ := exists_cut h
    have hpaths : pathsOf [m] = pathsOf [l] := by rw [pathsOf_singleton, pathsOf_singleton, hspec]
    rw [← htext, ← hpaths]
    exact ⟨m.found, m.finds hstart forall_head?_nil, m.placed_found, m.covers_found.congr (by simp [h])⟩
  · refine ⟨[], (silent_cut h).finds, placed_nil _, Nat.zero_le _, iff_of_false ?_ h⟩
    cases hspec : l.spec with
    | none => exact absurd (fun e he => by simp [hspec] at he) h
    | some e => simp [pathsOf_singleton, hspec]

theorem joined_cons_cons (l m : Line) (r : List Line) :
    joined (l :: m :: r) = (l.text ++ ['\n']) ++ joined (m :: r) := by
  simp [joined, List.intercalate_cons_cons]

theorem pathsOf_cons (l : Line) (r : List Line) : pathsOf (l :: r) = pathsOf [l] ++ pathsOf r :=
  List.filterMap_append (l := [l])

theorem areRead_of_nil {lines : List Line} (h : pathsOf lines = []) : AreRead lines := by
  induction lines with
  | nil => trivial
  | cons l r ih =>
    rw [pathsOf_cons, List.append_eq_nil_iff] at h
    refine ⟨fun e he => ?_, .inl h.2⟩
    rw [Option.mem_def] at he
    simp [pathsOf_singleton, he] at h

theorem silent_newline : Silent entry before ['\n'] rest :=
  silent_cons.mpr ⟨entry_of_bare (bare_of_head (forall_head?_cons.mpr (by decide))), silent_nil⟩

theorem entries_cut (lines : List Line) (hstart : atLineStart before = true) :
    ∃ found, Finds entry before (cut (joined lines)) [] found ∧
      Placed (cut (joined lines)).length found ∧
      Covers found (pathsOf lines) (AreRead lines) := by
  induction lines generalizing before with
  | nil => exact ⟨[], silent_nil.finds, placed_nil _, Nat.zero_le _, iff_of_true rfl trivial⟩
  | cons l r ih =>
    rw [pathsOf_cons, AreRead]
    by_cases hends : r = [] ∨ ')' ∈ l.text
    · -- The line is the last one that is read.
      obtain ⟨found, hfinds, hplaced, hcovers⟩ := l.covers_cut hstart
      have hcut : cut (joined (l :: r)) = cut l.text := by
        cases r with
        | nil => rw [joined, List.map_singleton, List.intercalate_singleton]
        | cons m r =>
          rw [joined_cons_cons, List.append_assoc]
          exact cut_append_of_mem (hends.resolve_left (List.cons_ne_nil m r)) _
      rw [hcut]
      refine ⟨found, hfinds, hplaced, (hcovers.lost (pathsOf r)).congr (and_congr_right ?_)⟩
      rcases hends with rfl | hparen
      · simp [pathsOf]
      · simp [hparen]
    · rw [not_or] at hends
      obtain ⟨m, r, rfl⟩ := List.exists_cons_of_ne_nil hends.1
      have hnext : atLineStart ((l.text ++ ['\n']).getLast?.or before) = true := by
        rw [List.getLast?_concat]
        rfl
      obtain ⟨later, hfinds, hplaced, hcovers⟩ := ih hnext
      have hparen : ')' ∉ l.text ++ ['\n'] := by simp [hends.2]
      have hline : Finds entry before (l.text ++ ['\n']) (cut (joined (m :: r)) ++ []) l.found := by
        have hhere : Finds entry before l.text (['\n'] ++ (cut (joined (m :: r)) ++ [])) l.found :=
          l.finds hstart (forall_head?_cons.mpr rfl)
        simpa using hhere.append silent_newline.finds
      have hread : l.IsRead := fun e he hmem => hends.2 (by
        rw [Option.mem_def] at he
        simp [Line.text, he, hmem])
      rw [joined_cons_cons, cut_append_of_notMem hparen, List.length_append]
      refine ⟨_, hline.append hfinds, Placed.append (l.placed_found.mono (by simp)) hplaced,
        (l.covers_found.append (hcovers.shift _)).congr ?_⟩
      simp only [hread, hends.2, true_and, not_false_iff]
      exact ⟨.inr, fun h => h.elim areRead_of_nil id⟩

end Block

end ChangeImpact.Imports.Go
