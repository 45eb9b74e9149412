import ChangeImpact.Proofs.Data.Results
import ChangeImpact.Template.Render

/-!
# How a field is read

A field is a name up to what ends it, perhaps a conversion, and perhaps a layout that goes up to
the brace that matches the one of the field. What can be read as a name and as a layout is told by
`isName` and `isBalanced`.
-/

namespace ChangeImpact.Template

@[simp] theorem openBrace_beq : (openBrace == closeBrace) = false := rfl

@[simp] theorem closeBrace_beq : (closeBrace == openBrace) = false := rfl

theorem isBrace_iff {c : Char} : isBrace c = true ↔ c = openBrace ∨ c = closeBrace := by
  simp [isBrace]

section Names

def isName (inBracket : Bool) : List Char → Bool
  | [] => !inBracket
  | c :: r =>
    if inBracket then isName (c != ']') r
    else !isBrace c && c != ':' && c != '!' && isName (c == '[') r

def IsEnd (c : Char) : Prop := c = closeBrace ∨ c = ':' ∨ c = '!'

theorem readName_append {b : Bool} {name : List Char} (h : isName b name) {e : Char} (he : IsEnd e)
    (r : List Char) : readName b (name ++ e :: r) = .ok (name, e, r) := by
  induction name generalizing b with
  | nil =>
    obtain rfl : b = false := by simpa [isName] using h
    have hend : (e == closeBrace || e == ':' || e == '!') = true := by
      simpa [IsEnd, or_assoc] using he
    have hopen : (e == openBrace) = false := by rcases he with rfl | rfl | rfl <;> rfl
    simp [readName, hend, hopen]
  | cons c name ih =>
    rw [isName] at h
    rw [List.cons_append, readName]
    -- Between brackets (`b`) every character belongs to the name.
    cases b with
    | true =>
      simp only [if_true] at h ⊢
      rw [ih h]
      rfl
    | false =>
      simp only [Bool.false_eq_true, if_false, Bool.and_eq_true, Bool.not_eq_true', isBrace,
        Bool.or_eq_false_iff, bne_iff_ne, ne_eq] at h
      obtain ⟨⟨⟨⟨hopen, hclose⟩, hcolon⟩, hbang⟩, hname⟩ := h
      simp only [Bool.false_eq_true, if_false, hopen, hclose, beq_eq_false_iff_ne.mpr hcolon,
        beq_eq_false_iff_ne.mpr hbang, Bool.or_self, ih hname]
      rfl

theorem of_readName {b : Bool} {s name r : List Char} {e : Char}
    (h : readName b s = .ok (name, e, r)) : s = name ++ e :: r ∧ isName b name ∧ IsEnd e := by
  induction s generalizing b name with
  | nil => cases h
  | cons c s ih =>
    have hon : ∀ b' p, readName b' s = .ok p → (c :: p.1, p.2) = (name, e, r) →
        ∃ n, name = c :: n ∧ s = n ++ e :: r ∧ isName b' n ∧ IsEnd e := by
      intro b' p hread heq
      obtain ⟨n, e', r'⟩ := p
      obtain ⟨rfl, rfl, rfl⟩ := by simpa using heq
      exact ⟨n, rfl, ih hread⟩
    rw [readName] at h
    split at h
    next hb =>
      obtain ⟨p, hread, heq⟩ := map_eq_ok.mp h
      obtain ⟨n, rfl, rfl, hname, he⟩ := hon _ p hread heq
      exact ⟨rfl, by rw [isName, if_pos hb]; exact hname, he⟩
    next hb =>
      split at h
      next => cases h
      next hopen =>
        split at h
        next hend =>
          obtain ⟨rfl, rfl, rfl⟩ := by simpa using h
          exact ⟨rfl, by simpa [isName] using hb, by simpa [IsEnd, or_assoc] using hend⟩
        next hend =>
          obtain ⟨p, hread, heq⟩ := map_eq_ok.mp h
          obtain ⟨n, rfl, rfl, hname, he⟩ := hon _ p hread heq
          refine ⟨rfl, ?_, he⟩
          rw [isName, if_neg hb, hname]
          simp_all [isBrace]

end Names

section Layouts

def isBalanced (depth : Nat) : List Char → Bool
  | [] => depth == 0
  | c :: r =>
    if c == openBrace then isBalanced (depth + 1) r
    else if c == closeBrace then depth != 0 && isBalanced (depth - 1) r
    else isBalanced depth r

theorem readLayout_append {depth : Nat} {layout : List Char} (h : isBalanced depth layout)
    (r : List Char) : readLayout depth (layout ++ closeBrace :: r) = .ok (layout, r) := by
  induction layout generalizing depth with
  | nil =>
    have hdepth : depth = 0 := by simpa [isBalanced] using h
    simp [readLayout, hdepth]
  | cons c layout ih =>
    rw [isBalanced] at h
    rw [List.cons_append, readLayout]
    rcases eq_or_ne c openBrace with rfl | hopen
    · rw [beq_self_eq_true, if_pos rfl] at h
      simp only [openBrace_beq, Bool.false_and, Bool.false_eq_true, if_false, beq_self_eq_true,
        if_true, ih h]
      rfl
    · rcases eq_or_ne c closeBrace with rfl | hclose
      · simp only [closeBrace_beq, Bool.false_eq_true, if_false, beq_self_eq_true, if_true,
          Bool.and_eq_true, bne_iff_ne, ne_eq] at h
        simp only [closeBrace_beq, beq_self_eq_true, Bool.true_and, beq_eq_false_iff_ne.mpr h.1,
          Bool.false_eq_true, if_false, if_true, ih h.2]
        rfl
      · simp only [beq_eq_false_iff_ne.mpr hopen, beq_eq_false_iff_ne.mpr hclose,
          Bool.false_eq_true, if_false] at h
        simp only [beq_eq_false_iff_ne.mpr hopen, beq_eq_false_iff_ne.mpr hclose, Bool.false_and,
          Bool.false_eq_true, if_false, ih h]
        rfl

theorem of_readLayout {depth : Nat} {s layout r : List Char}
    (h : readLayout depth s = .ok (layout, r)) :
    s = layout ++ closeBrace :: r ∧ isBalanced depth layout := by
  induction s generalizing depth layout with
  | nil => cases h
  | cons c s ih =>
    rw [readLayout] at h
    split at h
    next hend =>
      obtain ⟨rfl, rfl⟩ := by simpa using h
      simp only [Bool.and_eq_true, beq_iff_eq] at hend
      exact ⟨by rw [hend.1]; rfl, by rw [hend.2]; rfl⟩
    next hend =>
      obtain ⟨⟨l, r'⟩, hread, heq⟩ := map_eq_ok.mp h
      simp only [Prod.mk.injEq] at heq
      obtain ⟨rfl, rfl⟩ := heq
      obtain ⟨rfl, hbalanced⟩ := ih hread
      refine ⟨rfl, ?_⟩
      rw [isBalanced]
      split
      next hopen => simpa [hopen] using hbalanced
      next hopen =>
        split
        next hclose =>
          have hdepth : depth ≠ 0 := by simpa [hclose] using hend
          simpa [hopen, hclose, hdepth] using hbalanced
        next hclose => simpa [hopen, hclose] using hbalanced

theorem noBrace_of_isBalanced {layout : List Char} (h : isBalanced 0 layout)
    (hopen : openBrace ∉ layout) : ∀ c ∈ layout, isBrace c = false := by
  induction layout with
  | nil => exact List.forall_mem_nil _
  | cons c r ih =>
    obtain ⟨hc, hr⟩ := not_or.mp (mt List.mem_cons.mpr hopen)
    rw [isBalanced, beq_eq_false_iff_ne.mpr (Ne.symm hc), if_neg Bool.false_ne_true] at h
    split at h
    next => cases h
    next hclose =>
      have hplain : isBrace c = false := by simpa [isBrace, Ne.symm hc] using hclose
      exact List.forall_mem_cons.mpr ⟨hplain, ih h hr⟩

end Layouts

section Fields

def conversionText (conversion : Option Char) : List Char := conversion.elim [] fun c => ['!', c]

theorem readField_closed {name : List Char} (h : isName false name) (conversion : Option Char)
    (r : List Char) : readField (name ++ conversionText conversion ++ closeBrace :: r) =
      .ok (.field name conversion [], r) := by
  cases conversion with
  | none =>
    have hname := readName_append h (.inl rfl) r
    rw [readField, conversionText, Option.elim_none, List.append_nil, hname]
    rfl
  | some c =>
    have hname := readName_append h (.inr (.inr rfl)) (c :: closeBrace :: r)
    rw [readField, conversionText, Option.elim_some, List.append_assoc, List.cons_append,
      List.singleton_append, hname]
    rfl

theorem readField_laid {name : List Char} (h : isName false name) (conversion : Option Char)
    {layout : List Char} (hl : isBalanced 0 layout) (r : List Char) :
    readField (name ++ conversionText conversion ++ ':' :: (layout ++ closeBrace :: r)) =
      .ok (.field name conversion layout, r) := by
  have hlayout := readLayout_append hl r
  cases conversion with
  | none =>
    have hname := readName_append h (.inr (.inl rfl)) (layout ++ closeBrace :: r)
    rw [readField, conversionText, Option.elim_none, List.append_nil, hname]
    simp only [bind, Except.bind, show (':' == closeBrace) = false from rfl, Bool.false_eq_true,
      if_false, beq_self_eq_true, if_true, hlayout]
    rfl
  | some c =>
    have hname := readName_append h (.inr (.inr rfl)) (c :: ':' :: (layout ++ closeBrace :: r))
    rw [readField, conversionText, Option.elim_some, List.append_assoc, List.cons_append,
      List.singleton_append, hname]
    simp only [bind, Except.bind, show ('!' == closeBrace) = false from rfl,
      show ('!' == ':') = false from rfl, show (':' == closeBrace) = false from rfl,
      Bool.false_eq_true, if_false, beq_self_eq_true, if_true, hlayout]
    rfl

theorem of_bind_readLayout {name s r : List Char} {conversion : Option Char} {p : Piece}
    (h : (readLayout 0 s >>= fun (layout, r) => pure (.field name conversion layout, r)) =
      .ok (p, r)) :
    ∃ layout, isBalanced 0 layout ∧ s = layout ++ closeBrace :: r ∧
      p = .field name conversion layout := by
  obtain ⟨⟨layout, _⟩, hlayout, heq⟩ := bind_eq_ok.mp h
  obtain ⟨rfl, rfl⟩ := Prod.mk.inj (Except.ok.inj heq)
  obtain ⟨rfl, hbalanced⟩ := of_readLayout hlayout
  exact ⟨layout, hbalanced, rfl, rfl⟩

theorem of_readField {s r : List Char} {p : Piece} (h : readField s = .ok (p, r)) :
    ∃ name conversion, isName false name ∧
      (s = name ++ conversionText conversion ++ closeBrace :: r ∧ p = .field name conversion [] ∨
        ∃ layout, isBalanced 0 layout ∧
          s = name ++ conversionText conversion ++ ':' :: (layout ++ closeBrace :: r) ∧
            p = .field name conversion layout) := by
  obtain ⟨⟨name, e, rest⟩, hread, hrest⟩ := bind_eq_ok.mp h
  obtain ⟨rfl, hname, he⟩ := of_readName hread
  -- Behind the name or the conversion the field is closed or a layout begins.
  refine ⟨name, if e = '!' then rest.head? else none, hname, ?_⟩
  rcases he with rfl | rfl | rfl
  · obtain ⟨rfl, rfl⟩ := by simpa [pure, Except.pure] using hrest
    exact .inl ⟨by simp [conversionText, closeBrace], rfl⟩
  · obtain ⟨layout, hbalanced, rfl, rfl⟩ := of_bind_readLayout hrest
    exact .inr ⟨layout, hbalanced, by simp [conversionText], rfl⟩
  · cases rest with
    | nil => cases hrest
    | cons c rest =>
      cases rest with
      | nil => cases hrest
      | cons d rest =>
        simp only [show ('!' == closeBrace) = false from rfl, show ('!' == ':') = false from rfl,
          Bool.false_eq_true, if_false] at hrest
        split at hrest
        next hd =>
          obtain ⟨rfl, rfl⟩ := by simpa [pure, Except.pure] using hrest
          exact .inl ⟨by simp [conversionText, beq_iff_eq.mp hd], rfl⟩
        next =>
          split at hrest
          next hd =>
            obtain ⟨layout, hbalanced, rfl, rfl⟩ := of_bind_readLayout hrest
            exact .inr ⟨layout, hbalanced, by simp [conversionText, beq_iff_eq.mp hd], rfl⟩
          next => cases hrest

theorem head?_opening {name : List Char} (h : isName false name) (conversion : Option Char)
    {c : Char} (hc : c ≠ openBrace) (r : List Char) :
    (name ++ conversionText conversion ++ c :: r).head? ≠ some openBrace := by
  cases name with
  | nil =>
    cases conversion with
    | none => simpa [conversionText] using hc
    | some d => simp [conversionText, openBrace]
  | cons d name =>
    have hd : isBrace d = false := by
      simp only [isName, Bool.false_eq_true, if_false, Bool.and_eq_true, Bool.not_eq_true'] at h
      exact h.1.1.1
    simp only [List.cons_append, List.head?_cons, ne_eq, Option.some.injEq]
    rintro rfl
    cases hd

end Fields

end ChangeImpact.Template
