import ChangeImpact.Imports.EcmaScript
import ChangeImpact.Proofs.Data.Spans
import ChangeImpact.Proofs.Imports.Segments
import ChangeImpact.Proofs.Text.Words

/-!
# Where the forms of an import are found

Each form begins with a keyword and goes on to a quoted name. What stands between them decides:
a form is silent in a text without quotation marks, unless the text ends with the last word that
the form has before the name.
-/

namespace ChangeImpact.Imports.EcmaScript

open Text

inductive Shape where
  | clause
  | bare
  | required
  | awaited
  deriving Repr, DecidableEq

namespace Shape

def words : Shape → List String
  | clause => ["import", "export"]
  | bare => ["import"]
  | required => ["require"]
  | awaited => ["import"]

def rest? : Shape → List Char → Option (List Char × List Char)
  | clause => clauseAfter?
  | bare => fun r => quoted? (skipBlanks r)
  | required => argument?
  | awaited => argument?

def recogniser (k : Shape) : Recogniser (List Char) := form k.words k.rest?

def all : List Shape := [clause, bare, required, awaited]

theorem words_isWord (k : Shape) : ∀ w ∈ k.words, w.toList ≠ [] ∧
    ∀ c ∈ w.toList, isWord c = true := by
  have hall : ∀ w ∈ k.words, w.toList ≠ [] ∧ w.toList.all isWord = true := by
    cases k <;> decide
  exact fun w hw => ⟨(hall w hw).1, List.all_eq_true.mp (hall w hw).2⟩

end Shape

theorem forms_eq : forms = Shape.all.map Shape.recogniser := rfl

/-! ## Blanks, marks and words -/

theorem skipBlanks_append {b : List Char} (hb : ∀ c ∈ b, isBlank c = true) (s : List Char) :
    skipBlanks (b ++ s) = skipBlanks s :=
  List.dropWhile_append_of_pos hb

theorem skipBlanks_cons {c : Char} (hc : isBlank c = false) (s : List Char) :
    skipBlanks (c :: s) = c :: s := by
  rw [skipBlanks, List.dropWhile_cons, hc, if_neg Bool.false_ne_true]

theorem quoted?_cons {c : Char} (hc : isQuote c = false) (s : List Char) :
    quoted? (c :: s) = none := by
  rw [quoted?, hc]
  rfl

theorem quoted?_skipBlanks {z : List Char} (hquote : ∀ c ∈ z, isQuote c = false) (x : List Char)
    (h : (∀ c ∈ z, isBlank c = true) → quoted? (skipBlanks x) = none) :
    quoted? (skipBlanks (z ++ x)) = none := by
  by_cases hz : ∀ c ∈ z, isBlank c = true
  · rw [skipBlanks_append hz, h hz]
  · obtain ⟨b, c, r, rfl, hb, hc⟩ := exists_first_not hz
    rw [List.append_assoc, skipBlanks_append hb, List.cons_append, skipBlanks_cons hc]
    exact quoted?_cons (hquote c (List.mem_append_right _ List.mem_cons_self)) _

theorem argument?_blanks {b : List Char} (hb : ∀ c ∈ b, isBlank c = true) (s : List Char) :
    argument? (b ++ s) = argument? s := by
  rw [argument?, skipBlanks_append hb, argument?]

theorem argument?_cons {c : Char} (hblank : isBlank c = false) (hc : c ≠ '(') (s : List Char) :
    argument? (c :: s) = none := by
  simp [argument?, skipBlanks_cons hblank, after?, Ne.symm hc]

theorem argument?_open {s : List Char} (h : quoted? (skipBlanks s) = none) :
    argument? ('(' :: s) = none := by
  have hopen : skipBlanks ('(' :: s) = '(' :: s := skipBlanks_cons rfl s
  simp only [argument?, hopen, after?, beq_self_eq_true, ↓reduceIte, Option.bind_eq_bind,
    Option.bind_some, h, Option.bind_none]

theorem argument?_append {z : List Char} (hparen : '(' ∉ z) (x : List Char)
    (h : (∀ c ∈ z, isBlank c = true) → argument? x = none) : argument? (z ++ x) = none := by
  by_cases hz : ∀ c ∈ z, isBlank c = true
  · rw [argument?_blanks hz, h hz]
  · obtain ⟨b, c, r, rfl, hb, hc⟩ := exists_first_not hz
    rw [List.append_assoc, argument?_blanks hb, List.cons_append]
    exact argument?_cons hc (fun heq => hparen (by simp [heq])) _

/-! ## What stands before a name -/

/-- A word that is found where `t` follows `s` lies in `s`, if no word reaches over its end. -/
theorem exists_of_append_eq {s t w r : List Char} (hw : ∀ c ∈ w, isWord c = true) (hs : s ≠ [])
    (hend : (∀ c ∈ s.getLast?, isWord c = false) ∨ ∀ c ∈ t.head?, isWord c = false)
    (h : s ++ t = w ++ r) : ∃ z, s = w ++ z ∧ r = z ++ t := by
  rcases List.append_eq_append_iff.mp h with ⟨z, hwz, htz⟩ | ⟨z, hsz, hrz⟩
  · cases z with
    | nil => exact ⟨[], by simpa using hwz.symm, by simpa using htz.symm⟩
    | cons c z =>
      rcases hend with hlast | hhead
      · have hmem := List.getLast_mem hs
        have hword := hw _ (hwz ▸ List.mem_append_left _ hmem)
        rw [hlast _ (List.getLast?_eq_some_getLast hs)] at hword
        exact absurd hword Bool.false_ne_true
      · have hword := hw c (by simp [hwz])
        rw [hhead c (by simp [htz])] at hword
        exact absurd hword Bool.false_ne_true
  · exact ⟨z, hsz, hrz⟩

theorem isWord_from : ∀ c ∈ "from".toList, isWord c = true := List.all_eq_true.mp (by decide)

theorem isSuffix_trimRight {w y s : List Char} (hw : w.getLast?.any isBlank = false)
    (hy : ∀ c ∈ y, isBlank c = true) (h : w ++ y <:+ s) : w <:+ trimRight isBlank s := by
  obtain ⟨u, rfl⟩ := h
  rw [← List.append_assoc, trimRight_append hy]
  rcases List.eq_nil_or_concat w with rfl | ⟨v, c, rfl⟩
  · exact List.nil_suffix
  · rw [List.concat_eq_append, ← List.append_assoc, trimRight_append_cons (by simpa using hw)]
    exact ⟨u, by simp [trimRight]⟩

/-- Where a text of clause characters ends, `from` and a quoted text are not found earlier. -/
theorem clause?_eq_none {z : List Char} {c : Char} {t : List Char}
    (hquote : ∀ d ∈ z, isQuote d = false) (hc : inClause c = false)
    (h : ∀ y, (∀ d ∈ y, isBlank d = true) → "from".toList ++ y <:+ z → quoted? (c :: t) = none)
    (before : Option Char) : clause? before (z ++ c :: t) = none := by
  have hclass := hc
  simp only [inClause, Bool.or_eq_false_iff] at hclass
  obtain ⟨⟨hword, hblank⟩, -⟩ := hclass
  -- The word `from` may end anywhere in `z`, so the reader is followed character by character.
  induction z generalizing before with
  | nil =>
    have hfrom : fromQuoted? before (c :: t) = none := by
      rw [fromQuoted?]
      split
      · have hf : ('f' == c) = false := by
          rw [beq_eq_false_iff_ne]
          rintro rfl
          exact absurd hword (by decide)
        simp [after?, hf]
      · rfl
    rw [List.nil_append, clause?, hfrom, hc]
    rfl
  | cons d r ih =>
    have hfrom : fromQuoted? before (d :: r ++ c :: t) = none := by
      rw [fromQuoted?]
      split
      · refine Option.bind_eq_none_iff.mpr fun s hs => ?_
        obtain ⟨y, hy, rfl⟩ := exists_of_append_eq isWord_from (List.cons_ne_nil d r)
          (.inr fun e he => by simpa [← Option.some.inj he] using hword) (after?_eq_some.mp hs)
        refine quoted?_skipBlanks (fun e he => hquote e ?_) _ fun hall => ?_
        · rw [hy]
          exact List.mem_append_right _ he
        · rw [skipBlanks_cons hblank]
          exact h y hall (hy ▸ List.suffix_rfl)
      · rfl
    rw [List.cons_append] at hfrom ⊢
    rw [clause?, hfrom]
    dsimp only
    split
    · refine ih (fun e he => hquote e (List.mem_cons_of_mem _ he)) (fun y hy hsuffix => ?_) _
      exact h y hy (hsuffix.trans (List.suffix_cons d r))
    · rfl

theorem isQuote_iff {c : Char} : isQuote c = true ↔ c = '\'' ∨ c = '"' := by
  simp [isQuote]

theorem isBlank_of_isQuote {c : Char} (h : isQuote c = true) : isBlank c = false := by
  rcases isQuote_iff.mp h with rfl | rfl <;> decide

theorem inClause_of_isQuote {c : Char} (h : isQuote c = true) : inClause c = false := by
  rcases isQuote_iff.mp h with rfl | rfl <;> decide

theorem isWord_of_inClause {c : Char} (h : inClause c = false) : isWord c = false := by
  simp only [inClause, Bool.or_eq_false_iff] at h
  exact h.1.1

theorem argument?_append_quote {z t : List Char} {q : Char} (hquote : ∀ c ∈ z, isQuote c = false)
    (hq : isQuote q = true) (h : quoted? (q :: t) = none) : argument? (z ++ q :: t) = none := by
  have hblank := isBlank_of_isQuote hq
  by_cases hz : ∀ c ∈ z, isBlank c = true
  · rw [argument?_blanks hz]
    refine argument?_cons hblank ?_ t
    rintro rfl
    exact absurd hq (by decide)
  · obtain ⟨b, c, r, rfl, hb, hc⟩ := exists_first_not hz
    rw [List.append_assoc, argument?_blanks hb, List.cons_append]
    by_cases hparen : c = '('
    · subst hparen
      refine argument?_open (quoted?_skipBlanks (fun d hd => hquote d (by simp [hd])) _ fun _ => ?_)
      rwa [skipBlanks_cons hblank]
    · exact argument?_cons hc hparen _

theorem clauseAfter?_append {z : List Char} {c : Char} {t : List Char}
    (hquote : ∀ d ∈ z, isQuote d = false) (hc : inClause c = false)
    (h : ∀ y, (∀ d ∈ y, isBlank d = true) → "from".toList ++ y <:+ z → quoted? (c :: t) = none) :
    clauseAfter? (z ++ c :: t) = none := by
  cases z with
  | nil =>
    have hblank : isBlank c = false := by
      simp only [inClause, Bool.or_eq_false_iff] at hc
      exact hc.1.2
    rw [List.nil_append, clauseAfter?, hblank, if_neg Bool.false_ne_true]
  | cons d r =>
    rw [List.cons_append, clauseAfter?]
    split
    · refine clause?_eq_none (fun e he => hquote e (List.mem_cons_of_mem _ he)) hc ?_ _
      exact fun y hy hsuffix => h y hy (hsuffix.trans (List.suffix_cons d r))
    · rfl

namespace Shape

/-- The last word that a form has before its name or before the bracket around it. -/
def signal : Shape → List Char
  | clause => "from".toList
  | bare => "import".toList
  | required => "require".toList
  | awaited => "import".toList

def opened? : Shape → List Char → Option (List Char × List Char)
  | clause => quoted?
  | bare => quoted?
  | required => argument?
  | awaited => argument?

theorem rest?_eq_none_of_quoted? (k : Shape) {z t : List Char} {q : Char}
    (hquote : ∀ c ∈ z, isQuote c = false) (hq : isQuote q = true)
    (h : quoted? (q :: t) = none) : k.rest? (z ++ q :: t) = none := by
  have hcall := argument?_append_quote hquote hq h
  cases k with
  | clause => exact clauseAfter?_append hquote (inClause_of_isQuote hq) fun _ _ _ => h
  | bare =>
    refine quoted?_skipBlanks hquote _ fun _ => ?_
    rwa [skipBlanks_cons (isBlank_of_isQuote hq)]
  | required | awaited => exact hcall

theorem rest?_eq_none (k : Shape) {w : String} (hw : w ∈ k.words) {s z t : List Char} {c : Char}
    (hs : w.toList ++ z <:+ s) (hquote : ∀ d ∈ s, isQuote d = false) (hparen : '(' ∉ s)
    (hblank : isBlank c = false) (hc : inClause c = false)
    (h : k.signal <:+ trimRight isBlank s → k.opened? (c :: t) = none) :
    k.rest? (z ++ c :: t) = none := by
  have hz : z <:+ s := (List.suffix_append _ z).trans hs
  have hquotez : ∀ d ∈ z, isQuote d = false := fun d hd => hquote d (hz.subset hd)
  have hcall (hall : ∀ d ∈ z, isBlank d = true) (hsignal : w.toList = k.signal)
      (hlast : k.signal.getLast?.any isBlank = false) : k.opened? (c :: t) = none :=
    h (isSuffix_trimRight hlast hall (hsignal ▸ hs))
  cases k with
  | clause =>
    refine clauseAfter?_append hquotez hc fun y hy hsuffix => h ?_
    exact isSuffix_trimRight (by decide) hy (hsuffix.trans hz)
  | bare =>
    refine quoted?_skipBlanks hquotez _ fun hall => ?_
    rw [skipBlanks_cons hblank]
    exact hcall hall (by rw [List.mem_singleton.mp hw]; rfl) (by decide)
  | required | awaited =>
    refine argument?_append (fun hmem => hparen (hz.subset hmem)) _ fun hall => ?_
    exact hcall hall (by rw [List.mem_singleton.mp hw]; rfl) (by decide)

theorem rest?_cons_word (k : Shape) {c : Char} (hc : isWord c = true) (t : List Char) :
    k.rest? (c :: t) = none := by
  have hblank : isBlank c = false := by
    by_contra h
    rw [isWord_of_isBlank (by simpa using h)] at hc
    exact Bool.false_ne_true hc
  have hquote : isQuote c = false := by
    by_contra h
    rw [isWord_of_inClause (inClause_of_isQuote (by simpa using h))] at hc
    exact Bool.false_ne_true hc
  have hcall : argument? (c :: t) = none := by
    refine argument?_cons hblank ?_ t
    rintro rfl
    exact absurd hc (by decide)
  cases k with
  | clause => rw [rest?, clauseAfter?, hblank, if_neg Bool.false_ne_true]
  | bare =>
    change quoted? (skipBlanks (c :: t)) = none
    rw [skipBlanks_cons hblank, quoted?_cons hquote]
  | required | awaited => exact hcall

/-- Nothing is found in a text if no keyword in it goes on to a name. -/
theorem silent (k : Shape) {before : Option Char} {s t : List Char}
    (hend : (∀ c ∈ s.getLast?, isWord c = false) ∨ ∀ c ∈ t.head?, isWord c = false)
    (h : ∀ w ∈ k.words, ∀ u z, u ++ (w.toList ++ z) = s →
      atWordStart (u.getLast?.or before) = true → k.rest? (z ++ t) = none) :
    Silent k.recogniser before s t := by
  rintro u v rfl hv
  rw [recogniser, form]
  split
  next hstart =>
    refine List.findSome?_eq_none_iff.mpr fun w hw => ?_
    refine Option.bind_eq_none_iff.mpr fun r hr => ?_
    have hendv : (∀ c ∈ v.getLast?, isWord c = false) ∨ ∀ c ∈ t.head?, isWord c = false := by
      rwa [List.getLast?_append_of_ne_nil u hv] at hend
    obtain ⟨z, rfl, rfl⟩ :=
      exists_of_append_eq (k.words_isWord w hw).2 hv hendv (after?_eq_some.mp hr)
    rw [h w hw u z rfl hstart]
    rfl
  next => rfl

theorem silent_front (k : Shape) (before : Option Char) {s t : List Char} {c : Char}
    (hquote : ∀ d ∈ s, isQuote d = false) (hparen : '(' ∉ s)
    (hblank : isBlank c = false) (hc : inClause c = false)
    (h : k.signal <:+ trimRight isBlank s → k.opened? (c :: t) = none) :
    Silent k.recogniser before s (c :: t) := by
  refine k.silent (.inr fun d hd => ?_) fun w hw u z hs _ => ?_
  · rw [← Option.some.inj hd]
    exact isWord_of_inClause hc
  · exact k.rest?_eq_none hw ⟨u, hs⟩ hquote hparen hblank hc h

theorem silent_quoted (k : Shape) (before : Option Char) {s t : List Char} {q e : Char}
    (hs : ∀ d ∈ s, isQuote d = false) (hq : isQuote q = true) (he : isQuote e = true)
    (h : quoted? (e :: t) = none) : Silent k.recogniser before (q :: s) (e :: t) := by
  have hword {c : Char} (hc : isQuote c = true) : isWord c = false :=
    isWord_of_inClause (inClause_of_isQuote hc)
  refine k.silent (.inr fun d hd => ?_) fun w hw u z huz _ => ?_
  · rw [← Option.some.inj hd]
    exact hword he
  · refine k.rest?_eq_none_of_quoted? (fun d hd => hs d ?_) he h
    cases u with
    | nil =>
      have hmem : q ∈ w.toList := by
        obtain ⟨c, r, hcr⟩ := List.exists_cons_of_ne_nil (k.words_isWord w hw).1
        rw [hcr, List.nil_append, List.cons_append] at huz
        rw [hcr, (List.cons.inj huz).1]
        exact List.mem_cons_self
      have hqword := (k.words_isWord w hw).2 q hmem
      rw [hword hq] at hqword
      exact absurd hqword Bool.false_ne_true
    | cons c u =>
      rw [← (List.cons.inj huz).2]
      simp [hd]

theorem silent_of_no_word (k : Shape) (before : Option Char) {s t : List Char}
    (hs : ∀ c ∈ s, isWord c = false) : Silent k.recogniser before s t := by
  refine k.silent (.inl fun c hc => hs c (List.mem_of_getLast? hc)) fun w hw u z huz _ => ?_
  obtain ⟨c, r, hcr⟩ := List.exists_cons_of_ne_nil (k.words_isWord w hw).1
  have hc := (k.words_isWord w hw).2 c (by simp [hcr])
  rw [hs c (by simp [← huz, hcr])] at hc
  exact absurd hc Bool.false_ne_true

end Shape

/-! ## What is found -/

structure Quoted where
  quote : Char
  isQuote : EcmaScript.isQuote quote = true
  text : List Char
  ne_nil : text ≠ []
  isPlain : ∀ c ∈ text, EcmaScript.isPlain c = true

namespace Quoted

variable (q : Quoted)

def spelling : List Char := q.quote :: q.text ++ [q.quote]

theorem not_isQuote : ∀ c ∈ q.text, EcmaScript.isQuote c = false := by
  intro c hc
  have hplain := q.isPlain c hc
  simp only [EcmaScript.isPlain, Bool.and_eq_true, Bool.not_eq_true'] at hplain
  exact hplain.1

theorem not_isPlain_quote : EcmaScript.isPlain q.quote = false := by
  rw [EcmaScript.isPlain, q.isQuote]
  rfl

theorem quoted?_spelling (t : List Char) : quoted? (q.spelling ++ t) = some (q.text, t) := by
  have hhead : ∀ c ∈ (q.quote :: t).head?, EcmaScript.isPlain c = false := by
    intro c hc
    rw [← Option.some.inj hc]
    exact q.not_isPlain_quote
  have hspelling : q.spelling ++ t = q.quote :: (q.text ++ q.quote :: t) := by simp [spelling]
  rw [hspelling, quoted?, takeWhile_append_of_head q.isPlain hhead,
    dropWhile_append_of_head q.isPlain hhead, q.isQuote]
  simp [q.ne_nil, q.isQuote]

theorem skipBlanks_spelling (t : List Char) : skipBlanks (q.spelling ++ t) = q.spelling ++ t :=
  skipBlanks_cons (isBlank_of_isQuote q.isQuote) _

theorem quoted?_eq_none {e : Char} {s : List Char} (hs : ∀ c ∈ s, EcmaScript.isQuote c = false)
    (t : List Char) : quoted? (e :: (s ++ '\n' :: t)) = none := by
  have hstop : ∃ c r, (s ++ '\n' :: t).dropWhile EcmaScript.isPlain = c :: r ∧
      EcmaScript.isQuote c = false := by
    induction s with
    | nil => exact ⟨'\n', t, rfl, rfl⟩
    | cons c r ih =>
      rw [List.cons_append, List.dropWhile_cons]
      split
      · exact ih fun d hd => hs d (List.mem_cons_of_mem _ hd)
      · exact ⟨c, r ++ '\n' :: t, rfl, hs c List.mem_cons_self⟩
  obtain ⟨c, r, hrest, hc⟩ := hstop
  rw [quoted?, hrest]
  simp [hc]

end Quoted

theorem inClause_of_isBlank {c : Char} (h : isBlank c = true) : inClause c = true := by
  simp [inClause, h]

theorem not_isQuote_of_inClause {c : Char} (h : inClause c = true) : isQuote c = false := by
  by_contra hquote
  rw [inClause_of_isQuote (by simpa using hquote)] at h
  exact Bool.false_ne_true h

theorem clause?_of_some {before : Option Char} {s : List Char} {found : List Char × List Char}
    (h : fromQuoted? before s = some found) : clause? before s = some found := by
  cases s with
  | nil =>
    have hnone : fromQuoted? before [] = none := by
      rw [fromQuoted?]
      split <;> rfl
    rw [hnone] at h
    exact absurd h nofun
  | cons c r => rw [clause?, h]

theorem clause?_of_none {before : Option Char} {c : Char} {r : List Char}
    (h : fromQuoted? before (c :: r) = none) (hc : inClause c = true) :
    clause? before (c :: r) = clause? (some c) r := by
  rw [clause?, h, hc]
  rfl

/-- The last `from` before a quoted text ends the clause, whatever words stand in it. -/
theorem clause?_spelling {s g : List Char} (q : Quoted) (hs : ∀ c ∈ s, inClause c = true)
    (hg : ∀ c ∈ g, isBlank c = true) (before : Option Char)
    (hend : ∀ c ∈ s.getLast?.or before, isWord c = false) (t : List Char) :
    clause? before (s ++ ("from".toList ++ (g ++ (q.spelling ++ t)))) = some (q.text, t) := by
  induction s generalizing before with
  | nil =>
    have hstart : atWordStart before = true := by
      cases before with
      | none => rfl
      | some c => simp [atWordStart, hend c rfl]
    refine clause?_of_some ?_
    rw [List.nil_append, fromQuoted?, hstart, if_pos rfl, after?_append, Option.bind_some,
      skipBlanks_append hg, q.skipBlanks_spelling, q.quoted?_spelling]
  | cons d r ih =>
    have hlast : ∀ c ∈ (d :: r).getLast?, isWord c = false := by
      intro c hc
      refine hend c ?_
      rw [Option.mem_def] at hc ⊢
      rw [hc, Option.some_or]
    -- An earlier `from` is followed by another word before the quotation mark.
    have hearlier : fromQuoted? before (d :: r ++ ("from".toList ++ (g ++ (q.spelling ++ t)))) =
        none := by
      rw [fromQuoted?]
      split
      · refine Option.bind_eq_none_iff.mpr fun rest hrest => ?_
        obtain ⟨y, hy, rfl⟩ := exists_of_append_eq isWord_from (List.cons_ne_nil d r)
          (.inl hlast) (after?_eq_some.mp hrest)
        refine quoted?_skipBlanks (fun c hc => not_isQuote_of_inClause (hs c ?_)) _ fun _ => rfl
        rw [hy]
        exact List.mem_append_right _ hc
      · rfl
    rw [List.cons_append] at hearlier ⊢
    rw [clause?_of_none hearlier (hs d List.mem_cons_self)]
    refine ih (fun c hc => hs c (List.mem_cons_of_mem _ hc)) (some d) ?_
    rwa [getLast?_cons_or] at hend

namespace Shape

theorem recogniser_append (k : Shape) {w : String} (hw : w ∈ k.words) {before : Option Char}
    (hbefore : atWordStart before = true) {r name rest : List Char}
    (h : k.rest? r = some (name, rest)) :
    k.recogniser before (w.toList ++ r) = some (name, (w.toList ++ r).length - rest.length) := by
  have hhere := after?_append w.toList r
  have himport : w = "export" → after? "import".toList (w.toList ++ r) = none := by
    rintro rfl
    rfl
  generalize w.toList ++ r = s at hhere himport ⊢
  rw [recogniser, form, hbefore, if_pos rfl]
  cases k with
  | clause =>
    rcases List.mem_pair.mp hw with rfl | rfl
    · simp only [words, List.findSome?_cons, hhere, Option.bind_eq_bind, Option.bind_some, h,
        Option.pure_def]
    · simp only [words, List.findSome?_cons, himport rfl, hhere, Option.bind_eq_bind,
        Option.bind_none, Option.bind_some, h, Option.pure_def]
  | bare | required | awaited =>
    rw [List.mem_singleton.mp hw] at hhere
    simp only [words, List.findSome?_cons, hhere, Option.bind_eq_bind, Option.bind_some, h,
      Option.pure_def]

theorem finds (k : Shape) {w : String} (hw : w ∈ k.words) {before : Option Char}
    (hbefore : atWordStart before = true) {r t name : List Char}
    (h : k.rest? (r ++ t) = some (name, t)) :
    Finds k.recogniser before (w.toList ++ r) t [(0, name)] := by
  refine finds_of_find (by simp [(k.words_isWord w hw).1]) ?_
  rw [List.append_assoc, k.recogniser_append hw hbefore h, ← List.append_assoc,
    List.length_append, Nat.add_sub_cancel]

end Shape

theorem clauseAfter?_spelling {s g : List Char} (q : Quoted) (hs : ∀ c ∈ s, inClause c = true)
    (hne : s ≠ []) (hstart : ∀ c ∈ s.head?, isBlank c = true)
    (hend : ∀ c ∈ s.getLast?, isWord c = false) (hg : ∀ c ∈ g, isBlank c = true)
    (t : List Char) :
    clauseAfter? (s ++ ("from".toList ++ (g ++ (q.spelling ++ t)))) = some (q.text, t) := by
  obtain ⟨c, r, rfl⟩ := List.exists_cons_of_ne_nil hne
  rw [List.cons_append, clauseAfter?, hstart c rfl, if_pos rfl]
  refine clause?_spelling q (fun d hd => hs d (List.mem_cons_of_mem _ hd)) hg _ ?_ t
  rw [← getLast?_cons_or, Option.or_none]
  exact hend

theorem argument?_spelling {g g' g'' : List Char} (q : Quoted) (hg : ∀ c ∈ g, isBlank c = true)
    (hg' : ∀ c ∈ g', isBlank c = true) (hg'' : ∀ c ∈ g'', isBlank c = true) (t : List Char) :
    argument? (g ++ '(' :: (g' ++ (q.spelling ++ (g'' ++ ')' :: t)))) = some (q.text, t) := by
  have hopen (s : List Char) : skipBlanks ('(' :: s) = '(' :: s := skipBlanks_cons rfl s
  have hclose : skipBlanks (')' :: t) = ')' :: t := skipBlanks_cons rfl t
  rw [argument?_blanks hg]
  simp only [argument?, hopen, after?, beq_self_eq_true, ↓reduceIte,
    Option.bind_eq_bind, Option.bind_some, skipBlanks_append hg', q.skipBlanks_spelling,
    q.quoted?_spelling, skipBlanks_append hg'', hclose, Option.pure_def]

end ChangeImpact.Imports.EcmaScript
