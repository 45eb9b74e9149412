import ChangeImpact.Console.Markup
import Mathlib.Data.List.Infix
import Mathlib.Data.List.TakeWhile

/-!
# The pieces of marked-up text

What is shown of marked-up text is the text without some of its characters. A tag costs it a
bracket, and a backslash before a tag costs it a backslash. So text that is shown with all its
backslashes has none in front of a bracket, and everything in it that looks like a tag is one.
-/

namespace ChangeImpact.Console

section Tags

structure IsInside (s : List Char) : Prop where
  begins : ∃ c ∈ s.head?, beginsTag c = true
  noOpening : '[' ∉ s
  noClosing : ']' ∉ s

def HoldsTag (s : List Char) : Prop :=
  ∃ before inside after, IsInside inside ∧ s = before ++ '[' :: (inside ++ ']' :: after)

theorem beginsTag_bracket : beginsTag '[' = false ∧ beginsTag ']' = false := by decide

theorem tag?_tag {inside : List Char} (h : IsInside inside) (rest : List Char) :
    tag? ('[' :: (inside ++ ']' :: rest)) = some inside := by
  obtain ⟨⟨c, hc, hbegins⟩, hopening, hclosing⟩ := h
  cases inside with
  | nil => cases hc
  | cons d r =>
    obtain rfl := Option.some.inj hc
    have hr : ∀ x ∈ r, (x != '[' && x != ']') = true := by
      intro x hx
      simp only [List.mem_cons, not_or] at hopening hclosing
      simp [ne_of_mem_of_not_mem hx hopening.2, ne_of_mem_of_not_mem hx hclosing.2]
    simp [tag?, hbegins, List.takeWhile_append_of_pos hr, List.dropWhile_append_of_pos hr]

theorem tag?_eq_some {s inside : List Char} :
    tag? s = some inside ↔ IsInside inside ∧ ∃ rest, s = '[' :: (inside ++ ']' :: rest) := by
  constructor
  · intro h
    unfold tag? at h
    split at h
    next c r =>
      rw [Option.ite_none_right_eq_some, Bool.and_eq_true, beq_iff_eq] at h
      obtain ⟨⟨hbegins, hclosed⟩, hinside⟩ := h
      obtain rfl := Option.some.inj hinside
      have hr : ∀ x ∈ r.takeWhile fun c => c != '[' && c != ']', x ≠ '[' ∧ x ≠ ']' :=
        fun x hx => by simpa using List.mem_takeWhile_imp hx
      have hc {b : Char} (hb : beginsTag b = false) : b ≠ c := by
        rintro rfl
        rw [hb] at hbegins
        cases hbegins
      obtain ⟨rest, hrest⟩ := List.head?_eq_some_iff.mp hclosed
      refine ⟨⟨⟨c, rfl, hbegins⟩, ?_, ?_⟩, rest, ?_⟩
      · exact List.not_mem_cons_of_ne_of_not_mem (hc beginsTag_bracket.1) fun h => (hr _ h).1 rfl
      · exact List.not_mem_cons_of_ne_of_not_mem (hc beginsTag_bracket.2) fun h => (hr _ h).2 rfl
      · rw [← hrest, List.cons_append, List.takeWhile_append_dropWhile]
    next => cases h
  · rintro ⟨h, rest, rfl⟩
    exact tag?_tag h rest

theorem tag?_of_ne {c : Char} (h : c ≠ '[') (r : List Char) : tag? (c :: r) = none := by
  rw [Option.eq_none_iff_forall_ne_some]
  intro inside hinside
  obtain ⟨-, rest, heq⟩ := tag?_eq_some.mp hinside
  exact h (List.cons.inj heq).1

/-- A further opening bracket does not complete what is no tag. -/
theorem tag?_append_bracket {c : Char} {s : List Char} (h : tag? (c :: s) = none) (t : List Char) :
    tag? (c :: (s ++ '[' :: t)) = none := by
  rw [Option.eq_none_iff_forall_ne_some]
  intro inside hinside
  obtain ⟨hin, rest, heq⟩ := tag?_eq_some.mp hinside
  obtain ⟨rfl, hrest⟩ := List.cons.inj heq
  rcases List.append_eq_append_iff.mp hrest with ⟨more, rfl, hmore⟩ | ⟨more, rfl, hmore⟩
  · cases more with
    | nil => exact absurd (List.cons.inj hmore).1 (by decide)
    | cons d more =>
      obtain ⟨rfl, -⟩ := List.cons.inj hmore
      exact hin.noOpening (List.mem_append_right s List.mem_cons_self)
  · cases more with
    | nil => exact absurd (List.cons.inj hmore).1 (by decide)
    | cons d more =>
      obtain ⟨rfl, -⟩ := List.cons.inj hmore
      rw [tag?_tag hin] at h
      cases h

/-- The number of places where what looks like a tag begins. -/
def tagCount : List Char → Nat
  | [] => 0
  | c :: r => (if (tag? (c :: r)).isSome then 1 else 0) + tagCount r

theorem tagCount_append_of_noBracket {s : List Char} (h : '[' ∉ s) (t : List Char) :
    tagCount (s ++ t) = tagCount t := by
  induction s with
  | nil => rfl
  | cons c r ih =>
    rw [List.mem_cons, not_or] at h
    rw [List.cons_append, tagCount, tag?_of_ne (Ne.symm h.1), ih h.2]
    simp

theorem tagCount_tag {inside : List Char} (h : IsInside inside) (rest : List Char) :
    tagCount ('[' :: (inside ++ ']' :: rest)) = 1 + tagCount rest := by
  have hskip : tagCount (inside ++ ']' :: rest) = tagCount rest := by
    have := tagCount_append_of_noBracket (s := inside ++ [']']) (by simp [h.noOpening]) rest
    simpa using this
  rw [tagCount, tag?_tag h, hskip]
  rfl

theorem le_tagCount_append (s t : List Char) : tagCount s + tagCount t ≤ tagCount (s ++ t) := by
  induction s with
  | nil => simp [tagCount]
  | cons c r ih =>
    rw [List.cons_append, tagCount, tagCount]
    cases hc : tag? (c :: r) with
    | none =>
      simp only [Option.isSome_none, Bool.false_eq_true, if_false]
      omega
    | some inside =>
      obtain ⟨hin, rest, heq⟩ := tag?_eq_some.mp hc
      have hwhole : tag? (c :: (r ++ t)) = some inside := by
        rw [← List.cons_append, heq, List.cons_append, List.append_assoc, List.cons_append,
          tag?_tag hin]
      simp only [hwhole, Option.isSome_some, if_true]
      omega

theorem tagCount_eq_zero_iff {s : List Char} : tagCount s = 0 ↔ ¬ HoldsTag s := by
  constructor
  · rintro hzero ⟨before, inside, after, hin, rfl⟩
    have hle := le_tagCount_append before ('[' :: (inside ++ ']' :: after))
    rw [tagCount_tag hin] at hle
    omega
  · intro h
    induction s with
    | nil => rfl
    | cons c r ih =>
      have hr : ¬ HoldsTag r := by
        rintro ⟨before, inside, after, hin, rfl⟩
        exact h ⟨c :: before, inside, after, hin, rfl⟩
      rw [tagCount, ih hr]
      cases hc : tag? (c :: r) with
      | none => rfl
      | some inside =>
        obtain ⟨hin, rest, heq⟩ := tag?_eq_some.mp hc
        exact absurd ⟨[], inside, rest, hin, heq⟩ h

instance (s : List Char) : Decidable (HoldsTag s) :=
  decidable_of_iff (¬ tagCount s = 0) (not_iff_comm.mp tagCount_eq_zero_iff.symm)

end Tags

section Escapes

def HoldsEscape (s : List Char) : Prop := ['\\', '['] <:+: s

instance (s : List Char) : Decidable (HoldsEscape s) :=
  inferInstanceAs (Decidable (['\\', '['] <:+: s))

theorem holdsEscape_cons {c : Char} {r : List Char} :
    HoldsEscape (c :: r) ↔ c = '\\' ∧ r.head? = some '[' ∨ HoldsEscape r := by
  rw [HoldsEscape, HoldsEscape, List.infix_cons_iff, List.cons_prefix_cons, eq_comm]
  cases r with
  | nil => simp
  | cons d r => simp [eq_comm]

theorem holdsEscape_append {s t : List Char} : HoldsEscape (s ++ t) ↔
    HoldsEscape s ∨ HoldsEscape t ∨ s.getLast? = some '\\' ∧ t.head? = some '[' := by
  induction s with
  | nil => simp [HoldsEscape]
  | cons c r ih =>
    rw [List.cons_append, holdsEscape_cons, holdsEscape_cons, ih]
    cases r with
    | nil => simp [HoldsEscape]; tauto
    | cons d r => simp [List.getLast?_cons_cons]; tauto

theorem holdsEscape_append_bracket {s : List Char} :
    HoldsEscape (s ++ ['[']) ↔ HoldsEscape s ∨ s.getLast? = some '\\' := by
  have hbracket : ¬ HoldsEscape ['['] := by
    rw [holdsEscape_cons]
    simp [HoldsEscape]
  rw [holdsEscape_append]
  simp [hbracket]

theorem not_holdsEscape_of_noBracket {s : List Char} (h : '[' ∉ s) : ¬ HoldsEscape s := by
  intro hescape
  exact h (hescape.subset (by simp))

end Escapes

section Pieces

theorem backslashes_succ_append (n : Nat) (s : List Char) :
    backslashes (n + 1) ++ s = backslashes n ++ '\\' :: s := by
  rw [backslashes, List.replicate_succ', List.append_assoc]
  rfl

theorem bracket_notMem_backslashes (n : Nat) : '[' ∉ backslashes n := by
  simp [backslashes]

theorem piecesFrom_skip (k : Nat) (s : List Char) : piecesFrom k 0 s = pieces (s.drop k) := by
  induction s generalizing k with
  | nil => cases k <;> rfl
  | cons c r ih =>
    cases k with
    | zero => rfl
    | succ k => rw [piecesFrom, ih, List.drop_succ_cons]

theorem piecesFrom_slash (n : Nat) (r : List Char) :
    piecesFrom 0 n ('\\' :: r) = piecesFrom 0 (n + 1) r := by
  rw [piecesFrom]
  rfl

theorem piecesFrom_tag {inside : List Char} (h : IsInside inside) (n : Nat) (rest : List Char) :
    piecesFrom 0 n ('[' :: (inside ++ ']' :: rest)) =
      .literal (backslashes (n / 2)) ::
        (if n % 2 = 1 then .literal ('[' :: inside ++ [']']) else .tag inside) ::
          piecesFrom 0 0 rest := by
  have hrest : (inside ++ ']' :: rest).drop (inside.length + 1) = rest := by
    rw [List.drop_append]
    simp
  rw [piecesFrom]
  simp only [show ('[' == '\\') = false by decide, tag?_tag h, piecesFrom_skip, hrest]
  rfl

theorem piecesFrom_other {c : Char} {r : List Char} (hc : c ≠ '\\') (h : tag? (c :: r) = none)
    (n : Nat) : piecesFrom 0 n (c :: r) =
      consText (backslashes (if c == '[' then n - 1 else n) ++ [c]) (piecesFrom 0 0 r) := by
  rw [piecesFrom]
  simp only [beq_eq_false_iff_ne.mpr hc, h]
  rfl

@[elab_as_elim]
theorem piecesInduction {motive : Nat → List Char → Prop} (nil : ∀ n, motive n [])
    (slash : ∀ n r, motive (n + 1) r → motive n ('\\' :: r))
    (tag : ∀ n inside rest, IsInside inside → motive 0 rest →
      motive n ('[' :: (inside ++ ']' :: rest)))
    (other : ∀ n c r, c ≠ '\\' → tag? (c :: r) = none → motive 0 r → motive n (c :: r))
    (n : Nat) (s : List Char) : motive n s := by
  match s with
  | [] => exact nil n
  | c :: r =>
    by_cases hc : c = '\\'
    · obtain rfl := hc
      exact slash n r (piecesInduction nil slash tag other (n + 1) r)
    · cases ht : tag? (c :: r) with
      | none => exact other n c r hc ht (piecesInduction nil slash tag other 0 r)
      | some inside =>
        obtain ⟨hin, rest, heq⟩ := tag?_eq_some.mp ht
        have hle : rest.length ≤ r.length := by
          have hlength : r.length + 1 = inside.length + (rest.length + 1) + 1 := by
            simpa using congrArg List.length heq
          omega
        rw [heq]
        exact tag n inside rest hin (piecesInduction nil slash tag other 0 rest)
termination_by s.length

def Piece.text : Piece → List Char
  | .stretch s => s
  | .literal s => s
  | .tag _ => []

def Piece.isTag : Piece → Bool
  | .tag _ => true
  | _ => false

def wholeText (ps : List Piece) : List Char := ps.flatMap Piece.text

def numTags (ps : List Piece) : Nat := ps.countP Piece.isTag

@[simp] theorem wholeText_nil : wholeText [] = [] := rfl

@[simp] theorem wholeText_cons (p : Piece) (ps : List Piece) :
    wholeText (p :: ps) = p.text ++ wholeText ps := rfl

@[simp] theorem wholeText_consText (s : List Char) (ps : List Piece) :
    wholeText (consText s ps) = s ++ wholeText ps := by
  unfold consText
  split
  · simp [Piece.text]
  · split
    next hs => simp [List.isEmpty_iff.mp hs]
    next => rfl

@[simp] theorem numTags_nil : numTags [] = 0 := rfl

@[simp] theorem numTags_stretch (s : List Char) (ps : List Piece) :
    numTags (.stretch s :: ps) = numTags ps := rfl

@[simp] theorem numTags_literal (s : List Char) (ps : List Piece) :
    numTags (.literal s :: ps) = numTags ps := rfl

@[simp] theorem numTags_tag (s : List Char) (ps : List Piece) :
    numTags (.tag s :: ps) = numTags ps + 1 := by
  rw [numTags, List.countP_cons_of_pos rfl, numTags]

@[simp] theorem numTags_consText (s : List Char) (ps : List Piece) :
    numTags (consText s ps) = numTags ps := by
  unfold consText
  split
  · rfl
  · split <;> rfl

theorem wholeText_sublist (n : Nat) (s : List Char) :
    List.Sublist (wholeText (piecesFrom 0 n s)) (backslashes n ++ s) := by
  induction n, s using piecesInduction with
  | nil n => simp [piecesFrom]
  | slash n r ih => rwa [piecesFrom_slash, ← backslashes_succ_append]
  | tag n inside rest hin ih =>
    have hslashes : List.Sublist (backslashes (n / 2)) (backslashes n) :=
      (List.replicate_sublist_replicate _).mpr (Nat.div_le_self n 2)
    rw [piecesFrom_tag hin, wholeText_cons, wholeText_cons]
    refine hslashes.append ?_
    split
    · simpa [Piece.text, backslashes] using ih
    · refine .cons _ (.trans ?_ (List.sublist_append_right _ _))
      exact .cons _ ih
  | other n c r hc ht ih =>
    rw [piecesFrom_other hc ht, wholeText_consText, List.append_assoc]
    refine .append ((List.replicate_sublist_replicate _).mpr ?_) (.cons_cons c ih)
    split <;> omega

theorem count_bracket (n : Nat) (s : List Char) :
    (wholeText (piecesFrom 0 n s)).count '[' + numTags (piecesFrom 0 n s) = s.count '[' := by
  have hslashes (k : Nat) : (backslashes k).count '[' = 0 :=
    List.count_eq_zero.mpr (bracket_notMem_backslashes k)
  induction n, s using piecesInduction with
  | nil n => simp [piecesFrom, hslashes]
  | slash n r ih => simpa [piecesFrom_slash] using ih
  | tag n inside rest hin ih =>
    have hinside : inside.count '[' = 0 := List.count_eq_zero.mpr hin.noOpening
    rw [piecesFrom_tag hin]
    split
    all_goals
      simp [Piece.text, hslashes, hinside]
      omega
  | other n c r hc ht ih =>
    rw [piecesFrom_other hc ht, wholeText_consText, numTags_consText, List.append_assoc,
      List.count_append, hslashes, List.singleton_append, List.count_cons, List.count_cons]
    omega

theorem count_backslash_le (n : Nat) (s : List Char) :
    (wholeText (piecesFrom 0 n s)).count '\\' ≤ n + s.count '\\' := by
  have hle := (wholeText_sublist n s).count_le '\\'
  rwa [List.count_append, backslashes, List.count_replicate_self] at hle

def KeepsBackslashes (n : Nat) (s : List Char) : Prop :=
  (wholeText (piecesFrom 0 n s)).count '\\' = n + s.count '\\'

theorem count_backslashes (n : Nat) : (backslashes n).count '\\' = n := List.count_replicate_self

theorem KeepsBackslashes.of_tag {n : Nat} {inside rest : List Char} (hin : IsInside inside)
    (h : KeepsBackslashes n ('[' :: (inside ++ ']' :: rest))) :
    n = 0 ∧ KeepsBackslashes 0 rest := by
  have hle := count_backslash_le 0 rest
  rw [KeepsBackslashes, piecesFrom_tag hin] at h
  rw [KeepsBackslashes]
  split at h
  all_goals
    simp [Piece.text, count_backslashes] at h
    omega

theorem KeepsBackslashes.of_other {n : Nat} {c : Char} {r : List Char} (hc : c ≠ '\\')
    (ht : tag? (c :: r) = none) (h : KeepsBackslashes n (c :: r)) :
    (c = '[' → n = 0) ∧ KeepsBackslashes 0 r := by
  have hle := count_backslash_le 0 r
  rw [KeepsBackslashes, piecesFrom_other hc ht, wholeText_consText, List.append_assoc,
    List.count_append, count_backslashes, List.singleton_append, List.count_cons_of_ne hc,
    List.count_cons_of_ne hc] at h
  rw [KeepsBackslashes]
  by_cases hbracket : c = '['
  · simp [hbracket] at h
    omega
  · simp [hbracket] at h ⊢
    omega

/-- Where no backslash is lost, none stands before a bracket, and all that looks like a tag is
one. -/
theorem numTags_of_keepsBackslashes (n : Nat) (s : List Char) (h : KeepsBackslashes n s) :
    numTags (piecesFrom 0 n s) = tagCount s ∧ ¬ HoldsEscape (backslashes n ++ s) := by
  induction n, s using piecesInduction with
  | nil n =>
    refine ⟨by simp [piecesFrom, tagCount], ?_⟩
    exact not_holdsEscape_of_noBracket (by simpa using bracket_notMem_backslashes n)
  | slash n r ih =>
    rw [KeepsBackslashes, piecesFrom_slash, List.count_cons_self] at h
    obtain ⟨htags, hescape⟩ := ih (by rw [KeepsBackslashes]; omega)
    rw [piecesFrom_slash, tagCount, tag?_of_ne (by decide), ← backslashes_succ_append]
    exact ⟨by simpa using htags, hescape⟩
  | tag n inside rest hin ih =>
    obtain ⟨rfl, hrest⟩ := h.of_tag hin
    obtain ⟨htags, hescape⟩ := ih hrest
    rw [piecesFrom_tag hin, tagCount_tag hin, ← htags]
    refine ⟨by simp [Nat.add_comm], ?_⟩
    have hinside : ¬ HoldsEscape (inside ++ [']']) :=
      not_holdsEscape_of_noBracket (by simp [hin.noOpening])
    have hsplit : inside ++ ']' :: rest = inside ++ [']'] ++ rest := by simp
    simp only [show backslashes 0 = [] from rfl, List.nil_append] at hescape ⊢
    rw [holdsEscape_cons, hsplit, holdsEscape_append]
    simpa [hinside] using hescape
  | other n c r hc ht ih =>
    obtain ⟨hbefore, hrest⟩ := h.of_other hc ht
    obtain ⟨htags, hescape⟩ := ih hrest
    rw [piecesFrom_other hc ht, numTags_consText, htags, tagCount, ht]
    refine ⟨by simp, ?_⟩
    rw [holdsEscape_append, holdsEscape_cons]
    rintro (hslashes | (⟨hslash, -⟩ | hr) | ⟨hlast, hhead⟩)
    · exact not_holdsEscape_of_noBracket (bracket_notMem_backslashes n) hslashes
    · exact hc hslash
    · exact hescape hr
    · rw [hbefore (Option.some.inj hhead)] at hlast
      cases hlast

@[simp] theorem consText_nil (ps : List Piece) : consText [] ps = ps := by
  unfold consText
  split <;> rfl

theorem consText_consText (s t : List Char) (ps : List Piece) :
    consText s (consText t ps) = consText (s ++ t) ps := by
  match ps, t with
  | .stretch u :: r, t => simp [consText]
  | [], [] => simp
  | .literal u :: r, [] => simp
  | .tag u :: r, [] => simp
  | [], c :: t => simp [consText]
  | .literal u :: r, c :: t => simp [consText]
  | .tag u :: r, c :: t => simp [consText]

theorem piecesFrom_append {rest : List Char} (hrest : ∀ c ∈ rest.head?, c = '[') {n : Nat}
    {s : List Char} (htag : tagCount s = 0)
    (hescape : ¬ HoldsEscape (backslashes n ++ (s ++ rest.take 1))) :
    piecesFrom 0 n (s ++ rest) = consText (backslashes n ++ s) (piecesFrom 0 0 rest) := by
  -- `n` counts the backslashes that have been passed and belong to what comes next.
  induction s generalizing n with
  | nil =>
    cases rest with
    | nil => simp [piecesFrom, backslashes]
    | cons c r =>
      obtain rfl := hrest c rfl
      cases n with
      | zero => simp [backslashes]
      | succ n =>
        refine absurd ?_ hescape
        rw [List.nil_append, backslashes_succ_append, holdsEscape_append, holdsEscape_cons]
        exact .inr (.inl (.inl ⟨rfl, rfl⟩))
  | cons c r ih =>
    obtain ⟨hc, hr⟩ := Nat.add_eq_zero_iff.mp htag
    have htag? : tag? (c :: r) = none := by simpa using hc
    have hwhole : tag? (c :: (r ++ rest)) = none := by
      cases rest with
      | nil => rwa [List.append_nil]
      | cons d t =>
        obtain rfl := hrest d rfl
        exact tag?_append_bracket htag? t
    by_cases hslash : c = '\\'
    · obtain rfl := hslash
      rw [List.cons_append, piecesFrom_slash, ih hr, backslashes_succ_append]
      rwa [backslashes_succ_append]
    · rw [List.cons_append, holdsEscape_append, holdsEscape_cons] at hescape
      have hn : (if c == '[' then n - 1 else n) = n := by
        split
        next hbracket =>
          cases n with
          | zero => rfl
          | succ n =>
            refine absurd (.inr (.inr ⟨?_, ?_⟩)) hescape
            · simp [backslashes, List.getLast?_replicate]
            · simpa using hbracket
        next => rfl
      have hmore : ¬ HoldsEscape (backslashes 0 ++ (r ++ rest.take 1)) :=
        fun h => hescape (.inr (.inl (.inr h)))
      rw [List.cons_append, piecesFrom_other hslash hwhole, hn, ih hr hmore, consText_consText]
      simp [backslashes]

theorem pieces_append {rest : List Char} (hrest : ∀ c ∈ rest.head?, c = '[') {s : List Char}
    (htag : tagCount s = 0) (hescape : ¬ HoldsEscape (s ++ rest.take 1)) :
    pieces (s ++ rest) = consText s (pieces rest) := piecesFrom_append hrest htag hescape

end Pieces

end ChangeImpact.Console
