import ChangeImpact.Proofs.Console.Names
import ChangeImpact.Proofs.Console.Pieces
import ChangeImpact.Proofs.Data.Results
import ChangeImpact.Proofs.Data.Spans

/-!
# Labels

A label is text with styled texts in it. It is shown as it is exactly if none of its texts holds
what looks like a tag, a backslash before a bracket, or the name of a pictograph, and none that a
tag follows ends with a backslash.
-/

namespace ChangeImpact.Console

section Plain

/-- Shown as it is where no tag follows. -/
structure IsPlain (s : List Char) : Prop where
  noTag : ¬ HoldsTag s
  noEscape : ¬ HoldsEscape s
  noName : showNames none s = s

theorem isPlain_iff {s : List Char} :
    IsPlain s ↔ ¬ HoldsTag s ∧ ¬ HoldsEscape s ∧ showNames none s = s :=
  ⟨fun h => ⟨h.noTag, h.noEscape, h.noName⟩, fun h => ⟨h.1, h.2.1, h.2.2⟩⟩

instance (s : List Char) : Decidable (IsPlain s) := decidable_of_iff _ isPlain_iff.symm

structure IsPlainBeforeTag (s : List Char) : Prop extends IsPlain s where
  noSlash : s.getLast? ≠ some '\\'

instance (s : List Char) : Decidable (IsPlainBeforeTag s) :=
  decidable_of_iff (IsPlain s ∧ s.getLast? ≠ some '\\')
    ⟨fun h => ⟨h.1, h.2⟩, fun h => ⟨h.toIsPlain, h.noSlash⟩⟩

def isOrdinary (c : Char) : Bool := c != '[' && c != ':' && c != '\\'

theorem holdsTag_bracket {s : List Char} (h : HoldsTag s) : '[' ∈ s := by
  obtain ⟨before, inside, after, -, rfl⟩ := h
  exact List.mem_append_right before List.mem_cons_self

theorem holdsTag_append {s t : List Char} (h : HoldsTag s) : HoldsTag (s ++ t) := by
  obtain ⟨before, inside, after, hin, rfl⟩ := h
  exact ⟨before, inside, after ++ t, hin, by simp⟩

theorem holdsTag_of_concat {s : List Char} {c : Char} (hc : c ≠ ']') (h : HoldsTag (s ++ [c])) :
    HoldsTag s := by
  obtain ⟨before, inside, after, hin, heq⟩ := h
  rcases after.eq_nil_or_concat with rfl | ⟨more, d, rfl⟩
  · have hlast := congrArg List.getLast? heq
    simp only [List.getLast?_append, List.getLast?_cons, List.getLast?_nil] at hlast
    exact absurd (Option.some.inj hlast) hc
  · have hsplit : s ++ [c] = (before ++ '[' :: (inside ++ ']' :: more)) ++ [d] := by
      simpa using heq
    exact ⟨before, inside, more, hin, List.append_inj_left' hsplit rfl⟩

theorem isPlainBeforeTag_of_ordinary {s : List Char} (h : s.all isOrdinary = true) :
    IsPlainBeforeTag s := by
  have hne : ∀ c ∈ s, c ≠ '[' ∧ c ≠ ':' ∧ c ≠ '\\' := by
    simpa [isOrdinary, and_assoc] using h
  have hbracket : '[' ∉ s := fun hc => (hne _ hc).1 rfl
  exact {
    noTag := fun htag => hbracket (holdsTag_bracket htag)
    noEscape := not_holdsEscape_of_noBracket hbracket
    noName := showNames_of_noColon fun hc => (hne _ hc).2.1 rfl
    noSlash := fun hlast => (hne _ (List.mem_of_getLast? hlast)).2.2 rfl }

/-- A blank at the end changes nothing, except that a backslash before it is no longer last. -/
theorem isPlainBeforeTag_append_blank {s : List Char} :
    IsPlainBeforeTag (s ++ [' ']) ↔ IsPlain s := by
  have htag : HoldsTag (s ++ [' ']) ↔ HoldsTag s :=
    ⟨holdsTag_of_concat (by decide), holdsTag_append⟩
  have hescape : HoldsEscape (s ++ [' ']) ↔ HoldsEscape s := by
    simp [holdsEscape_append, not_holdsEscape_of_noBracket]
  have hname : showNames none (s ++ [' ']) = s ++ [' '] ↔ showNames none s = s := by
    rw [showNames_append_blank, List.append_cancel_right_eq]
  constructor
  · intro h
    exact ⟨fun ht => h.noTag (htag.mpr ht), fun he => h.noEscape (hescape.mpr he),
      hname.mp h.noName⟩
  · intro h
    exact ⟨⟨fun ht => h.noTag (htag.mp ht), fun he => h.noEscape (hescape.mp he),
      hname.mpr h.noName⟩, by simp⟩

end Plain

section Styles

structure IsStyle (s : List Char) : Prop where
  inside : IsInside s
  noSlash : '/' ∉ s
  noEquals : '=' ∉ s
  noBackslash : '\\' ∉ s
  stripped : Text.strip s = s
  read : ∃ form, Style.normalForm s = .ok form

theorem IsStyle.inside_closing {s : List Char} (h : IsStyle s) : IsInside ('/' :: s) where
  begins := ⟨'/', rfl, by decide⟩
  noOpening := by simpa using h.inside.noOpening
  noClosing := by simpa using h.inside.noClosing

theorem takeWhile_of_notMem {s : List Char} (h : '=' ∉ s) : s.takeWhile (· != '=') = s := by
  simpa using takeWhile_ne_append h []

theorem textOf_opening {style : List Char} (h : IsStyle style) {form : String}
    (hform : Style.normalForm style = .ok form) (opened : List Opened) (ps : List Piece) :
    textOf opened (.tag style :: ps) = textOf (⟨form, []⟩ :: opened) ps := by
  rw [textOf, takeWhile_of_notMem h.noEquals]
  split
  next closed => exact absurd List.mem_cons_self h.noSlash
  next => simp [hform, Except.mapError, bind, Except.bind, List.drop_of_length_le]

theorem textOf_closing {style : List Char} (h : IsStyle style) {form : String}
    (hform : Style.normalForm style = .ok form) (opened : List Opened) (ps : List Piece) :
    textOf (⟨form, []⟩ :: opened) (.tag ('/' :: style) :: ps) = textOf opened ps := by
  have hne : style.isEmpty = false := by
    obtain ⟨c, hc, -⟩ := h.inside.begins
    cases style with
    | nil => cases hc
    | cons d r => rfl
  rw [textOf, takeWhile_of_notMem (by simpa using h.noEquals)]
  simp [h.stripped, closeTag, hne, hform, Except.mapError, bind, Except.bind, Opened.close, pure,
    Except.pure]

end Styles

section Text

theorem eq_wholeText {opened : List Opened} {ps : List Piece} {t : List Char}
    (h : textOf opened ps = .ok t) (hascii : IsAscii t) : t = wholeText ps := by
  induction ps generalizing opened t with
  | nil => exact (Except.ok.inj h).symm
  | cons p ps ih =>
    have hshown (s : List Char) (hs : (textOf opened ps).map (showNames none s ++ ·) = .ok t) :
        t = s ++ wholeText ps := by
      obtain ⟨u, hu, rfl⟩ := map_eq_ok.mp hs
      obtain ⟨hname, hascii⟩ := isAscii_append.mp hascii
      rw [showNames_of_isAscii hname, ih hu hascii]
      rfl
    cases p with
    | stretch s => exact hshown s h
    | literal s => exact hshown s h
    | tag inside =>
      rw [textOf] at h
      split at h
      · obtain ⟨opened', -, h⟩ := bind_eq_ok.mp h
        exact ih h hascii
      · obtain ⟨form, -, h⟩ := bind_eq_ok.mp h
        exact ih h hascii

theorem textOf_consText {ps : List Piece} (h : ∀ s r, ps ≠ .stretch s :: r) (opened : List Opened)
    (s : List Char) :
    textOf opened (consText s ps) = (textOf opened ps).map (showNames none s ++ ·) := by
  cases s with
  | nil =>
    rw [consText_nil]
    cases textOf opened ps <;> rfl
  | cons c s =>
    rw [consText]
    · rfl
    · exact h

@[simp] theorem textOf_literal_nil (opened : List Opened) (ps : List Piece) :
    textOf opened (.literal [] :: ps) = textOf opened ps := by
  rw [textOf]
  cases textOf opened ps <;> rfl

structure IsQuiet (s : List Char) : Prop where
  noTag : ¬ HoldsTag s
  noEscape : ¬ HoldsEscape (s ++ ['['])

theorem isPlainBeforeTag_iff {s : List Char} :
    IsPlainBeforeTag s ↔ IsQuiet s ∧ showNames none s = s := by
  constructor
  · intro h
    have hescape : ¬ HoldsEscape (s ++ ['[']) := fun he =>
      (holdsEscape_append_bracket.mp he).elim h.noEscape h.noSlash
    exact ⟨⟨h.noTag, hescape⟩, h.noName⟩
  · rintro ⟨⟨htag, he⟩, hname⟩
    rw [holdsEscape_append_bracket, not_or] at he
    exact ⟨⟨htag, he.1, hname⟩, he.2⟩

theorem textOf_append_tag {s : List Char} (h : IsQuiet s) {inside : List Char}
    (hin : IsInside inside) (opened : List Opened) (rest : List Char) :
    textOf opened (pieces (s ++ '[' :: (inside ++ ']' :: rest))) =
      (textOf opened (.tag inside :: pieces rest)).map (showNames none s ++ ·) := by
  have htag : pieces ('[' :: (inside ++ ']' :: rest)) = .literal [] :: .tag inside :: pieces rest :=
    piecesFrom_tag hin 0 rest
  have hescape : ¬ HoldsEscape (s ++ ('[' :: (inside ++ ']' :: rest)).take 1) := h.noEscape
  rw [pieces_append (by simp) (tagCount_eq_zero_iff.mpr h.noTag) hescape, htag,
    textOf_consText (by simp), textOf_literal_nil]

theorem textOf_pieces {s : List Char} (htag : ¬ HoldsTag s) (hescape : ¬ HoldsEscape s)
    (opened : List Opened) : textOf opened (pieces s) = .ok (showNames none s) := by
  have hwhole : pieces s = consText s (pieces []) := by
    rw [← pieces_append (by simp) (tagCount_eq_zero_iff.mpr htag) (by simpa using hescape),
      List.append_nil]
  rw [hwhole, pieces, piecesFrom, textOf_consText (by simp [backslashes, consText])]
  simp [backslashes, textOf, Except.map]

end Text

structure Segment where
  before : List Char
  style : List Char
  inside : List Char

namespace Segment

variable {g : Segment} {gs : List Segment}

def markup (g : Segment) : List Char :=
  g.before ++ '[' :: (g.style ++ ']' :: (g.inside ++ '[' :: (('/' :: g.style) ++ [']'])))

def text (g : Segment) : List Char := g.before ++ g.inside

def shown (g : Segment) : List Char := showNames none g.before ++ showNames none g.inside

structure IsPlain (g : Segment) : Prop where
  before : IsPlainBeforeTag g.before
  inside : IsPlainBeforeTag g.inside

theorem isPlain_iff : g.IsPlain ↔ IsPlainBeforeTag g.before ∧ IsPlainBeforeTag g.inside :=
  ⟨fun h => ⟨h.before, h.inside⟩, fun h => ⟨h.1, h.2⟩⟩

structure IsQuiet (g : Segment) : Prop where
  before : Console.IsQuiet g.before
  inside : Console.IsQuiet g.inside

theorem text_subset (g : Segment) : g.text ⊆ g.markup := by
  intro c hc
  simp only [text, markup, List.mem_append, List.mem_cons] at hc ⊢
  tauto

theorem markup_append (g : Segment) (rest : List Char) :
    g.markup ++ rest = g.before ++
      '[' :: (g.style ++ ']' :: (g.inside ++ '[' :: (('/' :: g.style) ++ ']' :: rest))) := by
  simp [markup]

theorem textOf_markup (hstyle : IsStyle g.style) (h : g.IsQuiet) (opened : List Opened)
    (rest : List Char) : textOf opened (pieces (g.markup ++ rest)) =
      (textOf opened (pieces rest)).map (g.shown ++ ·) := by
  obtain ⟨form, hform⟩ := hstyle.read
  rw [markup_append, textOf_append_tag h.before hstyle.inside, textOf_opening hstyle hform,
    textOf_append_tag h.inside hstyle.inside_closing, textOf_closing hstyle hform]
  cases textOf opened (pieces rest) <;> simp [Except.map, shown]

theorem textOf_flatMap_markup (hstyle : ∀ g ∈ gs, IsStyle g.style) (h : ∀ g ∈ gs, g.IsQuiet)
    (opened : List Opened) (rest : List Char) :
    textOf opened (pieces (gs.flatMap markup ++ rest)) =
      (textOf opened (pieces rest)).map (gs.flatMap shown ++ ·) := by
  induction gs with
  | nil =>
    rw [List.flatMap_nil, List.nil_append]
    cases textOf opened (pieces rest) <;> rfl
  | cons g gs ih =>
    obtain ⟨hg, hgs⟩ := List.forall_mem_cons.mp hstyle
    obtain ⟨hquiet, hquiets⟩ := List.forall_mem_cons.mp h
    rw [List.flatMap_cons, List.append_assoc, textOf_markup hg hquiet, ih hgs hquiets]
    cases textOf opened (pieces rest) <;> simp [Except.map]

theorem count_bracket_markup (hstyle : ∀ g ∈ gs, IsStyle g.style) :
    (gs.flatMap markup).count '[' = (gs.flatMap text).count '[' + 2 * gs.length := by
  induction gs with
  | nil => rfl
  | cons g gs ih =>
    obtain ⟨hg, hgs⟩ := List.forall_mem_cons.mp hstyle
    have hstyle : g.style.count '[' = 0 := List.count_eq_zero.mpr hg.inside.noOpening
    simp [markup, text, hstyle, ih hgs]
    omega

theorem count_backslash_markup (hstyle : ∀ g ∈ gs, IsStyle g.style) :
    (gs.flatMap markup).count '\\' = (gs.flatMap text).count '\\' := by
  induction gs with
  | nil => rfl
  | cons g gs ih =>
    obtain ⟨hg, hgs⟩ := List.forall_mem_cons.mp hstyle
    have hstyle : g.style.count '\\' = 0 := List.count_eq_zero.mpr hg.noBackslash
    simp [markup, text, hstyle, ih hgs]

theorem le_tagCount_markup (hstyle : IsStyle g.style) (rest : List Char) :
    tagCount g.before + tagCount g.inside + 2 + tagCount rest ≤ tagCount (g.markup ++ rest) := by
  have hinside := le_tagCount_append g.inside ('[' :: (('/' :: g.style) ++ ']' :: rest))
  have hbefore := le_tagCount_append g.before
    ('[' :: (g.style ++ ']' :: (g.inside ++ '[' :: (('/' :: g.style) ++ ']' :: rest))))
  rw [tagCount_tag hstyle.inside_closing] at hinside
  rw [tagCount_tag hstyle.inside] at hbefore
  rw [markup_append]
  omega

theorem le_tagCount_flatMap_markup (hstyle : ∀ g ∈ gs, IsStyle g.style) (rest : List Char) :
    2 * gs.length + tagCount rest ≤ tagCount (gs.flatMap markup ++ rest) := by
  induction gs with
  | nil => simp
  | cons g gs ih =>
    obtain ⟨hg, hgs⟩ := List.forall_mem_cons.mp hstyle
    have hle := le_tagCount_markup hg (gs.flatMap markup ++ rest)
    have hmore := ih hgs
    rw [List.flatMap_cons, List.append_assoc, List.length_cons]
    omega

/-- Where only the tags of the segments look like tags, and no backslash stands before a bracket,
all texts are quiet. -/
theorem isQuiet_of_tagCount_le (hstyle : ∀ g ∈ gs, IsStyle g.style) {rest : List Char}
    (htags : tagCount (gs.flatMap markup ++ rest) ≤ 2 * gs.length)
    (hescape : ¬ HoldsEscape (gs.flatMap markup ++ rest)) :
    (∀ g ∈ gs, g.IsQuiet) ∧ ¬ HoldsTag rest ∧ ¬ HoldsEscape rest := by
  induction gs with
  | nil => exact ⟨List.forall_mem_nil _, tagCount_eq_zero_iff.mp (Nat.le_zero.mp htags), hescape⟩
  | cons g gs ih =>
    obtain ⟨hg, hgs⟩ := List.forall_mem_cons.mp hstyle
    rw [List.flatMap_cons, List.append_assoc] at htags hescape
    rw [List.length_cons] at htags
    -- Each segment has two tags of its own, so none is left for its texts.
    have hle := le_tagCount_markup hg (gs.flatMap markup ++ rest)
    have hmore := le_tagCount_flatMap_markup hgs rest
    have hkept {s : List Char} (hs : s <:+: g.markup ++ (gs.flatMap markup ++ rest)) :
        ¬ HoldsEscape s := fun h => hescape (h.trans hs)
    obtain ⟨hquiets, hrest⟩ := ih hgs (by omega) (hkept (List.suffix_append _ _).isInfix)
    rw [markup_append] at hkept
    have hquiet : g.IsQuiet := {
      before := {
        noTag := tagCount_eq_zero_iff.mp (by omega)
        noEscape := hkept ⟨[], _, by simp; rfl⟩ }
      inside := {
        noTag := tagCount_eq_zero_iff.mp (by omega)
        noEscape := hkept ⟨g.before ++ '[' :: (g.style ++ [']']), _, by simp; rfl⟩ } }
    exact ⟨List.forall_mem_cons.mpr ⟨hquiet, hquiets⟩, hrest⟩

end Segment

structure Label where
  segments : List Segment
  after : List Char

namespace Label

def markup (l : Label) : List Char := l.segments.flatMap Segment.markup ++ l.after

def text (l : Label) : List Char := l.segments.flatMap Segment.text ++ l.after

structure IsPlain (l : Label) : Prop where
  segments : ∀ g ∈ l.segments, g.IsPlain
  after : Console.IsPlain l.after

theorem isPlain_iff {l : Label} :
    l.IsPlain ↔ (∀ g ∈ l.segments, g.IsPlain) ∧ Console.IsPlain l.after :=
  ⟨fun h => ⟨h.segments, h.after⟩, fun h => ⟨h.1, h.2⟩⟩

def IsStyled (l : Label) : Prop := ∀ g ∈ l.segments, IsStyle g.style

theorem text_subset (l : Label) : l.text ⊆ l.markup := by
  intro c hc
  rw [text, List.mem_append, List.mem_flatMap] at hc
  rw [markup, List.mem_append, List.mem_flatMap]
  exact hc.imp_left fun ⟨g, hg, hcg⟩ => ⟨g, hg, g.text_subset hcg⟩

variable {l : Label}

theorem textOf_quiet (hstyle : l.IsStyled) (hquiet : ∀ g ∈ l.segments, g.IsQuiet)
    (htag : ¬ HoldsTag l.after) (hescape : ¬ HoldsEscape l.after) :
    textOf [] (pieces l.markup) =
      .ok (l.segments.flatMap Segment.shown ++ showNames none l.after) := by
  rw [markup, Segment.textOf_flatMap_markup hstyle hquiet, textOf_pieces htag hescape]
  rfl

theorem textOf_plain (hstyle : l.IsStyled) (h : l.IsPlain) :
    textOf [] (pieces l.markup) = .ok l.text := by
  have hshown : l.segments.flatMap Segment.shown = l.segments.flatMap Segment.text := by
    refine List.flatMap_congr fun g hg => ?_
    obtain ⟨hbefore, hinside⟩ := h.segments g hg
    rw [Segment.shown, Segment.text, hbefore.noName, hinside.noName]
  have hquiet : ∀ g ∈ l.segments, g.IsQuiet := fun g hg =>
    ⟨(isPlainBeforeTag_iff.mp (h.segments g hg).before).1,
      (isPlainBeforeTag_iff.mp (h.segments g hg).inside).1⟩
  rw [textOf_quiet hstyle hquiet h.after.noTag h.after.noEscape, hshown, h.after.noName]
  rfl

/-- A label in ASCII is shown as it is exactly if all its texts are plain. The tags of the label
account for all brackets that its text is short of, and so for all that is taken for a tag. -/
theorem textOf_eq_ok_iff (hstyle : l.IsStyled) (hascii : IsAscii l.text) :
    textOf [] (pieces l.markup) = .ok l.text ↔ l.IsPlain := by
  refine ⟨fun h => ?_, textOf_plain hstyle⟩
  have hwhole : l.text = wholeText (piecesFrom 0 0 l.markup) := eq_wholeText h hascii
  have hbracket := count_bracket 0 l.markup
  have hslash := numTags_of_keepsBackslashes 0 l.markup
  rw [KeepsBackslashes] at hslash
  rw [← hwhole, markup, text, List.count_append, List.count_append] at hbracket hslash
  rw [Segment.count_bracket_markup hstyle] at hbracket
  rw [Segment.count_backslash_markup hstyle] at hslash
  obtain ⟨htags, hescape⟩ := hslash (Nat.zero_add _).symm
  have hfew : tagCount (l.segments.flatMap Segment.markup ++ l.after) ≤ 2 * l.segments.length := by
    omega
  obtain ⟨hquiet, htag, hescape⟩ := Segment.isQuiet_of_tagCount_le hstyle hfew hescape
  rw [textOf_quiet hstyle hquiet htag hescape] at h
  rw [← Except.ok.inj h] at hascii
  obtain ⟨hsegments, hafter⟩ := isAscii_append.mp hascii
  refine ⟨fun g hg => ?_, htag, hescape, showNames_of_isAscii hafter⟩
  have hg' : IsAscii g.shown := fun c hc => hsegments c (List.mem_flatMap.mpr ⟨g, hg, hc⟩)
  obtain ⟨hbefore, hinside⟩ := isAscii_append.mp hg'
  exact ⟨isPlainBeforeTag_iff.mpr ⟨(hquiet g hg).before, showNames_of_isAscii hbefore⟩,
    isPlainBeforeTag_iff.mpr ⟨(hquiet g hg).inside, showNames_of_isAscii hinside⟩⟩

end Label

end ChangeImpact.Console
