import ChangeImpact.Proofs.Template.Fields
import Mathlib.Data.Nat.Basic
import Mathlib.Order.Basic

/-!
# How templates are written

A template is text, fields and, in a field, perhaps a layout that is a template again. `Markup` is a
template by its parts and `spell` writes it down: a brace of the text twice, a field between braces.
The texts that are read without a fault are those that are written so: `isRead_iff`.
-/

namespace ChangeImpact.Template

inductive Markup where
  | text (s : List Char)
  | field (before name : List Char) (conversion : Option Char) (rest : Markup)
  | laid (before name : List Char) (conversion : Option Char) (layout rest : Markup)

def doubled (s : List Char) : List Char := s.flatMap fun c => if isBrace c then [c, c] else [c]

def opening (name : List Char) (conversion : Option Char) : List Char :=
  openBrace :: (name ++ conversionText conversion)

namespace Markup

def spell : Markup → List Char
  | text s => doubled s
  | field before name conversion rest =>
    doubled before ++ (opening name conversion ++ closeBrace :: rest.spell)
  | laid before name conversion layout rest =>
    doubled before ++ (opening name conversion ++ ':' :: (layout.spell ++ closeBrace :: rest.spell))

def IsWellFormed : Markup → Prop
  | text _ => True
  | field _ name _ rest => isName false name ∧ rest.IsWellFormed
  | laid _ name _ layout rest =>
    isName false name ∧ isBalanced 0 layout.spell ∧ layout.IsWellFormed ∧ rest.IsWellFormed

def depth : Markup → Nat
  | text _ => 1
  | field _ _ _ rest => rest.depth
  | laid _ _ _ layout rest =>
    max (if openBrace ∈ layout.spell then layout.depth + 1 else 1) rest.depth

def behind (s : List Char) : Markup → Markup
  | text t => text (s ++ t)
  | field before name conversion rest => field (s ++ before) name conversion rest
  | laid before name conversion layout rest => laid (s ++ before) name conversion layout rest

end Markup

section Doubled

@[simp] theorem doubled_nil : doubled [] = [] := rfl

@[simp] theorem doubled_append (s t : List Char) : doubled (s ++ t) = doubled s ++ doubled t :=
  List.flatMap_append

theorem doubled_cons (c : Char) (s : List Char) :
    doubled (c :: s) = if isBrace c then c :: c :: doubled s else c :: doubled s := by
  rw [doubled, List.flatMap_cons]
  split <;> rfl

theorem doubled_of_noBrace {s : List Char} (h : ∀ c ∈ s, isBrace c = false) : doubled s = s := by
  induction s with
  | nil => rfl
  | cons c r ih =>
    obtain ⟨hc, hr⟩ := List.forall_mem_cons.mp h
    rw [doubled_cons, hc, if_neg Bool.false_ne_true, ih hr]

theorem spell_behind (s : List Char) (m : Markup) : (m.behind s).spell = doubled s ++ m.spell := by
  cases m <;> simp [Markup.behind, Markup.spell]

theorem isWellFormed_behind {s : List Char} {m : Markup} :
    (m.behind s).IsWellFormed ↔ m.IsWellFormed := by
  cases m <;> rfl

theorem Markup.depth_pos (m : Markup) : 0 < m.depth := by
  induction m with
  | text => exact Nat.one_pos
  | field _ _ _ _ ih => exact ih
  | laid _ _ _ _ _ _ ih => exact Nat.lt_of_lt_of_le ih (Nat.le_max_right _ _)

theorem depth_behind (s : List Char) (m : Markup) : (m.behind s).depth = m.depth := by
  cases m <;> rfl

end Doubled

section Pieces

def prepend (c : Char) : List Piece → List Piece
  | .literal s :: ps => .literal (c :: s) :: ps
  | ps => ps

def withText (ps : List Piece) : List Char → List Piece
  | [] => ps
  | c :: r => if isBrace c then .literal [c] :: withText ps r else prepend c (withText ps r)

def Markup.pieces : Markup → List Piece
  | text s => withText [.literal []] s
  | field before name conversion rest =>
    withText (.literal [] :: .field name conversion [] :: rest.pieces) before
  | laid before name conversion layout rest =>
    withText (.literal [] :: .field name conversion layout.spell :: rest.pieces) before

theorem readPieces_plain {c : Char} (hc : isBrace c = false) (n : Nat) (s : List Char) :
    readPieces (n + 1) (c :: s) =
      (prepend c (readPieces (n + 1) s).1, (readPieces (n + 1) s).2) := by
  have htake : (c :: s).takeWhile (!isBrace ·) = c :: s.takeWhile (!isBrace ·) := by simp [hc]
  have hdrop : (c :: s).dropWhile (!isBrace ·) = s.dropWhile (!isBrace ·) := by simp [hc]
  rw [readPieces, readPieces, htake, hdrop]
  cases s.dropWhile (!isBrace ·) with
  | nil => rfl
  | cons d r =>
    dsimp only
    split
    · rfl
    · split
      · rfl
      · split
        · rfl
        · cases readField r <;> rfl

theorem readPieces_double {c : Char} (hc : isBrace c = true) (n : Nat) (s : List Char) :
    readPieces (n + 1) (c :: c :: s) =
      (.literal [c] :: (readPieces n s).1, (readPieces n s).2) := by
  simp [readPieces, hc]

theorem readPieces_field {s r : List Char} {f : Piece} (hhead : s.head? ≠ some openBrace)
    (hread : readField s = .ok (f, r)) (n : Nat) :
    readPieces (n + 1) (openBrace :: s) =
      (.literal [] :: f :: (readPieces n r).1, (readPieces n r).2) := by
  have hne : s.isEmpty = false := by
    cases s with
    | nil => cases hread
    | cons => rfl
  have hbrace : isBrace openBrace = true := rfl
  simp [readPieces, hbrace, hhead, hne, hread]

theorem readPieces_doubled {z : List Char} {ps : List Piece}
    (hz : ∀ n, z.length < n → readPieces n z = (ps, none)) (s : List Char) (n : Nat)
    (hn : (doubled s ++ z).length < n) : readPieces n (doubled s ++ z) = (withText ps s, none) := by
  induction s generalizing n with
  | nil => exact hz n hn
  | cons c r ih =>
    obtain ⟨n, rfl⟩ := Nat.exists_eq_add_one_of_ne_zero (Nat.ne_zero_of_lt hn)
    rw [doubled_cons] at hn ⊢
    rw [withText]
    cases hc : isBrace c with
    | true =>
      rw [hc, if_pos rfl] at hn
      simp only [List.cons_append, List.length_cons] at hn
      simp only [if_true, List.cons_append, readPieces_double hc, ih n (by omega)]
    | false =>
      rw [hc, if_neg Bool.false_ne_true] at hn
      simp only [List.cons_append, List.length_cons] at hn
      simp only [Bool.false_eq_true, if_false, List.cons_append, readPieces_plain hc,
        ih (n + 1) (by omega)]

theorem readPieces_spell {m : Markup} (h : m.IsWellFormed) (n : Nat) (hn : m.spell.length < n) :
    readPieces n m.spell = (m.pieces, none) := by
  induction m generalizing n with
  | text s =>
    have hend : ∀ n, ([] : List Char).length < n → readPieces n [] = ([.literal []], none) := by
      intro n hn
      obtain ⟨n, rfl⟩ := Nat.exists_eq_add_one_of_ne_zero (Nat.ne_zero_of_lt hn)
      rfl
    have hread := readPieces_doubled hend s n
    rw [List.append_nil] at hread
    exact hread hn
  | field before name conversion rest ih =>
    refine readPieces_doubled (fun n hn => ?_) before n hn
    obtain ⟨n, rfl⟩ := Nat.exists_eq_add_one_of_ne_zero (Nat.ne_zero_of_lt hn)
    simp only [opening, List.length_append, List.length_cons] at hn
    rw [opening, List.cons_append, readPieces_field (head?_opening h.1 _ (by decide) _)
      (readField_closed h.1 conversion _), ih h.2 n (by omega)]
  | laid before name conversion layout rest _ ih =>
    obtain ⟨hname, hbalanced, -, hrest⟩ := h
    refine readPieces_doubled (fun n hn => ?_) before n hn
    obtain ⟨n, rfl⟩ := Nat.exists_eq_add_one_of_ne_zero (Nat.ne_zero_of_lt hn)
    simp only [opening, List.length_append, List.length_cons] at hn
    rw [opening, List.cons_append, readPieces_field (head?_opening hname _ (by decide) _)
      (readField_laid hname conversion hbalanced _), ih hrest n (by omega)]

theorem pieces_spell {m : Markup} (h : m.IsWellFormed) : pieces m.spell = (m.pieces, none) :=
  readPieces_spell h _ (Nat.lt_succ_self _)

end Pieces

section Read

/-- A text is read without a fault, and so is every layout in it that may hold fields. -/
def IsRead : Nat → List Char → Prop
  | 0, _ => False
  | levels + 1, s => (pieces s).2 = none ∧ ∀ name conversion layout,
      .field name conversion layout ∈ (pieces s).1 → openBrace ∈ layout → IsRead levels layout

theorem field_mem_prepend {name layout : List Char} {conversion : Option Char} {c : Char}
    {ps : List Piece} :
    .field name conversion layout ∈ prepend c ps ↔ .field name conversion layout ∈ ps := by
  cases ps with
  | nil => rfl
  | cons p ps => cases p <;> simp [prepend]

theorem field_mem_withText {name layout : List Char} {conversion : Option Char} {ps : List Piece}
    {s : List Char} :
    .field name conversion layout ∈ withText ps s ↔ .field name conversion layout ∈ ps := by
  induction s with
  | nil => rfl
  | cons c r ih =>
    rw [withText]
    split
    · simpa using ih
    · rw [field_mem_prepend, ih]

variable {levels : Nat}

theorem readPieces_brace {n : Nat} {c : Char} {s : List Char} (hc : isBrace c = true)
    (h : (readPieces (n + 1) (c :: s)).2 = none) :
    (∃ r, s = c :: r) ∨ c = openBrace ∧ ∃ f r, readField s = .ok (f, r) := by
  have htake : (c :: s).takeWhile (!isBrace ·) = [] := by simp [hc]
  have hdrop : (c :: s).dropWhile (!isBrace ·) = c :: s := by simp [hc]
  rw [readPieces, htake, hdrop] at h
  dsimp only at h
  split at h
  next htwice => exact .inl ⟨s.tail, List.eq_cons_of_mem_head? (by simpa using htwice)⟩
  next =>
    split at h
    next => cases h
    next hclose =>
      split at h
      next => cases h
      next =>
        split at h
        next => cases h
        next f r hread =>
          exact .inr ⟨(isBrace_iff.mp hc).resolve_right (by simpa using hclose), f, r, hread⟩

def IsSpelled (levels : Nat) (s : List Char) : Prop :=
  ∃ m : Markup, m.IsWellFormed ∧ m.depth ≤ levels ∧ m.spell = s

section Spelled

variable {name layout rest : List Char} {conversion : Option Char}

theorem isSpelled_nil (levels : Nat) : IsSpelled (levels + 1) [] :=
  ⟨.text [], trivial, Nat.le_add_left 1 levels, rfl⟩

theorem IsSpelled.behind (h : IsSpelled levels rest) (s : List Char) :
    IsSpelled levels (doubled s ++ rest) := by
  obtain ⟨m, hwf, hdepth, rfl⟩ := h
  exact ⟨m.behind s, isWellFormed_behind.mpr hwf, (depth_behind s m).trans_le hdepth,
    spell_behind s m⟩

theorem IsSpelled.field (h : IsSpelled levels rest) (hname : isName false name) :
    IsSpelled levels (opening name conversion ++ closeBrace :: rest) := by
  obtain ⟨m, hwf, hdepth, rfl⟩ := h
  exact ⟨.field [] name conversion m, ⟨hname, hwf⟩, hdepth, rfl⟩

theorem exists_layout_spell (hbalanced : isBalanced 0 layout)
    (h : openBrace ∈ layout → IsSpelled levels layout) :
    ∃ l : Markup, l.IsWellFormed ∧ (openBrace ∈ l.spell → l.depth ≤ levels) ∧
      l.spell = layout := by
  by_cases hopen : openBrace ∈ layout
  · obtain ⟨l, hwf, hdepth, rfl⟩ := h hopen
    exact ⟨l, hwf, fun _ => hdepth, rfl⟩
  · have hplain := noBrace_of_isBalanced hbalanced hopen
    refine ⟨.text layout, trivial, fun hmem => ?_, doubled_of_noBrace hplain⟩
    rw [Markup.spell, doubled_of_noBrace hplain] at hmem
    exact absurd hmem hopen

theorem IsSpelled.laid (h : IsSpelled (levels + 1) rest) (hname : isName false name)
    (hbalanced : isBalanced 0 layout) (hlayout : openBrace ∈ layout → IsSpelled levels layout) :
    IsSpelled (levels + 1)
      (opening name conversion ++ ':' :: (layout ++ closeBrace :: rest)) := by
  obtain ⟨m, hwf, hdepth, rfl⟩ := h
  obtain ⟨l, hlwf, hldepth, rfl⟩ := exists_layout_spell hbalanced hlayout
  refine ⟨.laid [] name conversion l m, ⟨hname, hbalanced, hlwf, hwf⟩, ?_, rfl⟩
  rw [Markup.depth]
  refine max_le ?_ hdepth
  split
  next hopen => exact Nat.succ_le_succ (hldepth hopen)
  next => exact Nat.le_add_left 1 levels

end Spelled

/-- Whatever is read without a fault is written so. -/
theorem isSpelled_of_readPieces (hlayouts : ∀ l, IsRead levels l → IsSpelled levels l)
    (s : List Char) (n : Nat) (hn : s.length < n) (hfault : (readPieces n s).2 = none)
    (hfields : ∀ name conversion layout, .field name conversion layout ∈ (readPieces n s).1 →
      openBrace ∈ layout → IsRead levels layout) : IsSpelled (levels + 1) s := by
  -- The induction is on the length, since a field takes several characters at once.
  induction hlength : s.length using Nat.strong_induction_on generalizing s n with
  | _ k ih =>
  subst hlength
  obtain ⟨n, rfl⟩ := Nat.exists_eq_add_one_of_ne_zero (Nat.ne_zero_of_lt hn)
  match s with
  | [] => exact isSpelled_nil levels
  | c :: r =>
    rw [List.length_cons] at hn
    cases hc : isBrace c with
    | false =>
      rw [readPieces_plain hc] at hfault hfields
      simp only [field_mem_prepend] at hfields
      have hrest := ih r.length (Nat.lt_succ_self _) r (n + 1) (by omega) hfault hfields rfl
      have hspelled := hrest.behind [c]
      rwa [doubled_cons, hc] at hspelled
    | true =>
      rcases readPieces_brace hc hfault with ⟨r, rfl⟩ | ⟨rfl, f, rest, hread⟩
      · rw [readPieces_double hc] at hfault hfields
        rw [List.length_cons] at hn
        have hrest := ih r.length (by simp only [List.length_cons]; omega) r n (by omega) hfault
          (fun _ _ _ hmem => hfields _ _ _ (List.mem_cons_of_mem _ hmem)) rfl
        have hspelled := hrest.behind [c]
        rwa [doubled_cons, hc] at hspelled
      · obtain ⟨name, conversion, hname, hcases⟩ := of_readField hread
        have hhead : r.head? ≠ some openBrace := by
          rcases hcases with ⟨rfl, -⟩ | ⟨layout, -, rfl, -⟩
          exacts [head?_opening hname _ (by decide) _, head?_opening hname _ (by decide) _]
        rw [readPieces_field hhead hread] at hfault hfields
        have hlt : rest.length < r.length := by
          rcases hcases with ⟨rfl, -⟩ | ⟨layout, -, rfl, -⟩ <;> simp <;> omega
        have hrest := ih rest.length (by simp only [List.length_cons]; omega) rest n (by omega)
          hfault (fun _ _ _ hmem => hfields _ _ _
            (List.mem_cons_of_mem _ (List.mem_cons_of_mem _ hmem))) rfl
        rcases hcases with ⟨rfl, -⟩ | ⟨layout, hbalanced, rfl, rfl⟩
        · exact hrest.field hname
        · exact hrest.laid hname hbalanced fun hopen => hlayouts layout
            (hfields name conversion layout (List.mem_cons_of_mem _ List.mem_cons_self) hopen)

theorem mem_pieces_spell {m : Markup} {name layout : List Char} {conversion : Option Char}
    (hmem : .field name conversion layout ∈ m.pieces) (hopen : openBrace ∈ layout)
    (h : m.IsWellFormed) (hdepth : m.depth ≤ levels + 1) : IsSpelled levels layout := by
  induction m with
  | text s => simp [Markup.pieces, field_mem_withText] at hmem
  | field before name conversion rest ih =>
    simp only [Markup.pieces, field_mem_withText, List.mem_cons, reduceCtorEq, false_or,
      Piece.field.injEq] at hmem
    rcases hmem with ⟨-, -, rfl⟩ | hmem
    exacts [absurd hopen List.not_mem_nil, ih hmem h.2 hdepth]
  | laid before name conversion l rest _ ih =>
    obtain ⟨-, -, hlwf, hrest⟩ := h
    simp only [Markup.pieces, field_mem_withText, List.mem_cons, reduceCtorEq, false_or,
      Piece.field.injEq] at hmem
    rw [Markup.depth] at hdepth
    rcases hmem with ⟨-, -, rfl⟩ | hmem
    · rw [if_pos hopen] at hdepth
      exact ⟨l, hlwf, Nat.le_of_succ_le_succ ((Nat.le_max_left _ _).trans hdepth), rfl⟩
    · exact ih hmem hrest ((Nat.le_max_right _ _).trans hdepth)

/-- The texts that are read without a fault are those that some template is written as. -/
theorem isRead_iff {s : List Char} :
    IsRead levels s ↔ ∃ m : Markup, m.IsWellFormed ∧ m.depth ≤ levels ∧ m.spell = s := by
  induction levels generalizing s with
  | zero =>
    refine iff_of_false id fun h => ?_
    obtain ⟨m, -, hdepth, -⟩ := h
    exact absurd hdepth (Nat.not_le_of_lt m.depth_pos)
  | succ levels ih =>
    constructor
    · intro h
      exact isSpelled_of_readPieces (fun l hl => ih.mp hl) s _ (Nat.lt_succ_self _) h.1 h.2
    · intro h
      obtain ⟨m, hwf, hdepth, rfl⟩ := h
      rw [IsRead, pieces_spell hwf]
      exact ⟨rfl, fun _ _ _ hmem hopen => ih.mpr (mem_pieces_spell hmem hopen hwf hdepth)⟩

end Read

end ChangeImpact.Template
