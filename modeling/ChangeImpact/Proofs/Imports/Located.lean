import ChangeImpact.Proofs.Imports.Forms
import Mathlib.Data.List.Perm.Basic

/-!
# What the forms find together

The forms scan a text one by one, and their finds are put together by place. In the text of a
statement one form finds the name and the others find nothing: their last word is not the one
that stands before the name, and no quoted text begins at its second quotation mark.
-/

namespace ChangeImpact.Imports.EcmaScript

open Text

/-! ## What the four forms find together -/

def Locates (before : Option Char) (s rest : List Char) (located : List (Nat × List Char)) :
    Prop :=
  ∃ found : Shape → List (Nat × List Char),
    (∀ k : Shape, Finds k.recogniser before s rest (found k)) ∧
      (Shape.all.flatMap found).Perm located ∧
      located.Pairwise (fun a b => a.1 < b.1) ∧ ∀ f ∈ located, f.1 < s.length

section Locates

variable {before : Option Char} {s t u v rest : List Char}
  {located located' : List (Nat × List Char)}

theorem Locates.of_silent (h : ∀ k : Shape, Silent k.recogniser before s rest) :
    Locates before s rest [] :=
  LocatesBy.of_silent h

theorem Locates.nil : Locates before [] rest [] :=
  LocatesBy.nil

theorem Locates.of_find (k : Shape) {name : List Char}
    (hothers : ∀ j : Shape, j ≠ k → Silent j.recogniser before (u ++ v) rest)
    (hu : Silent k.recogniser before u (v ++ rest)) (hne : v ≠ [])
    (hv : Finds k.recogniser (u.getLast?.or before) v rest [(0, name)]) :
    Locates before (u ++ v) rest [(u.length, name)] := by
  have hnodup : Shape.all.Nodup := by decide
  have hk : k ∈ Shape.all := by cases k <;> decide
  exact LocatesBy.of_find hnodup hk hothers hu hne hv

theorem Locates.of_find_here (k : Shape) {name : List Char}
    (hothers : ∀ j : Shape, j ≠ k → Silent j.recogniser before v rest) (hne : v ≠ [])
    (hv : Finds k.recogniser before v rest [(0, name)]) : Locates before v rest [(0, name)] :=
  Locates.of_find (u := []) k hothers silent_nil hne hv

theorem Locates.append (hs : Locates before s (t ++ rest) located)
    (ht : Locates (s.getLast?.or before) t rest located') :
    Locates before (s ++ t) rest
      (located ++ located'.map fun f => (s.length + f.1, f.2)) :=
  LocatesBy.append hs ht

theorem specifiers_of_locates (h : Locates none s [] located) :
    specifiers s = located.map (·.2) := by
  obtain ⟨hperm, hplaces⟩ := LocatesBy.perm h
  have hforms : (forms.flatMap fun f => findAll f s) =
      Shape.all.flatMap fun k => findAll k.recogniser s := by
    rw [forms_eq, List.flatMap_map]
  rw [specifiers, hforms, inOrder_of_perm hperm hplaces]

end Locates

/-! ## The text of a statement -/

section Pieces

variable {before : Option Char} {q : Quoted} {rest : List Char}

def Closes (p : List Char) : Prop := ∀ c ∈ p, isWord c = false ∧ isQuote c = false

theorem closes_singleton {c : Char} (hword : isWord c = false) (hquote : isQuote c = false) :
    Closes [c] :=
  List.forall_mem_singleton.mpr ⟨hword, hquote⟩

theorem Closes.of_isBlank {p : List Char} (h : ∀ c ∈ p, Text.isBlank c = true) : Closes p :=
  fun c hc => ⟨isWord_of_isBlank (h c hc),
    not_isQuote_of_inClause (inClause_of_isBlank (h c hc))⟩

theorem Closes.append {p p' : List Char} (hp : Closes p) (hp' : Closes p') :
    Closes (p ++ p') := by
  intro c hc
  rcases List.mem_append.mp hc with hc | hc
  · exact hp c hc
  · exact hp' c hc

theorem silent_closing (k : Shape) {p : List Char} (hp : Closes p) :
    Silent k.recogniser before (p ++ ['\n']) rest := by
  refine k.silent_of_no_word before fun c hc => ?_
  rcases List.mem_append.mp hc with hc | hc
  · exact (hp c hc).1
  · rw [List.mem_singleton.mp hc]
    decide

theorem silent_name (k : Shape) {p : List Char} (hp : Closes p) :
    Silent k.recogniser before (q.spelling ++ (p ++ ['\n'])) rest := by
  have hsplit : q.spelling ++ (p ++ ['\n']) =
      (q.quote :: q.text) ++ ([q.quote] ++ (p ++ ['\n'])) := by
    simp [Quoted.spelling]
  rw [hsplit]
  refine Silent.append ?_ (Silent.append ?_ (silent_closing k hp))
  · refine k.silent_quoted before q.not_isQuote q.isQuote q.isQuote ?_
    have hnone := Quoted.quoted?_eq_none (e := q.quote) (fun c hc => (hp c hc).2) rest
    simpa using hnone
  · refine k.silent_of_no_word _ fun c hc => ?_
    rw [List.mem_singleton.mp hc]
    exact isWord_of_inClause (inClause_of_isQuote q.isQuote)

def Shape.IsCall (k : Shape) : Prop := k = .required ∨ k = .awaited

instance : DecidablePred Shape.IsCall := fun _ => inferInstanceAs (Decidable (_ ∨ _))

namespace Shape

theorem IsCall.rest?_eq {k : Shape} (h : k.IsCall) : k.rest? = argument? := by
  rcases h with rfl | rfl <;> rfl

theorem IsCall.opened?_eq {k : Shape} (h : k.IsCall) : k.opened? = argument? := by
  rcases h with rfl | rfl <;> rfl

theorem opened?_eq_quoted? {k : Shape} (h : ¬ k.IsCall) : k.opened? = quoted? := by
  cases k with
  | clause | bare => rfl
  | required => exact absurd (.inl rfl) h
  | awaited => exact absurd (.inr rfl) h

theorem IsCall.exists_word {k : Shape} (h : k.IsCall) : ∃ w ∈ k.words, w.toList = k.signal := by
  rcases h with rfl | rfl
  · exact ⟨"require", List.mem_cons_self, rfl⟩
  · exact ⟨"import", List.mem_cons_self, rfl⟩

theorem inClause_signal (k : Shape) : ∀ c ∈ k.signal, inClause c = true := by
  have hall : k.signal.all inClause = true := by cases k <;> decide
  exact List.all_eq_true.mp hall

/-- Among the calls, and among the other two forms, the last words are no ends of each other. -/
theorem signals_differ {j k : Shape} (hjk : j ≠ k) (h : j.IsCall ↔ k.IsCall) :
    ¬ (j.signal <:+ k.signal ∨ k.signal <:+ j.signal) := by
  revert hjk h
  cases j <;> cases k <;> decide

theorem not_isSuffix_trimRight {j k : Shape} (hjk : j ≠ k) (h : j.IsCall ↔ k.IsCall)
    {a g : List Char} (hg : ∀ c ∈ g, isBlank c = true) :
    ¬ j.signal <:+ trimRight isBlank (a ++ (k.signal ++ g)) := by
  intro hj
  have hsolid : k.signal.getLast?.any isBlank = false := by cases k <;> decide
  have hk : k.signal <:+ trimRight isBlank (a ++ (k.signal ++ g)) :=
    isSuffix_trimRight hsolid hg (List.suffix_append _ _)
  exact signals_differ hjk h (List.suffix_or_suffix_of_suffix hj hk)

end Shape

theorem inClause_of_isWord {c : Char} (h : isWord c = true) : inClause c = true := by
  simp [inClause, h]

theorem silent_before_name {j k : Shape} (hjk : j ≠ k) (hk : ¬ k.IsCall) {a g p : List Char}
    (hclass : ∀ c ∈ a ++ (k.signal ++ g), inClause c = true)
    (hg : ∀ c ∈ g, isBlank c = true) (hp : Closes p) :
    Silent j.recogniser before (a ++ (k.signal ++ g) ++ (q.spelling ++ (p ++ ['\n']))) rest := by
  have hblank := isBlank_of_isQuote q.isQuote
  have hquote := inClause_of_isQuote q.isQuote
  have hparen : '(' ∉ a ++ (k.signal ++ g) := fun hc => absurd (hclass _ hc) (by decide)
  refine Silent.append ?_ (silent_name j hp)
  refine j.silent_front before (fun c hc => not_isQuote_of_inClause (hclass c hc)) hparen hblank
    hquote fun hsignal => ?_
  by_cases hj : j.IsCall
  · rw [hj.opened?_eq]
    refine argument?_cons hblank (fun hopen => ?_) _
    have hq := q.isQuote
    rw [hopen] at hq
    exact absurd hq (by decide)
  · exact absurd hsignal (Shape.not_isSuffix_trimRight hjk (iff_of_false hj hk) hg)

theorem silent_before_bracket {j k : Shape} (hjk : j ≠ k) (hk : k.IsCall) {a g t : List Char}
    (ha : ∀ c ∈ a, isQuote c = false) (hparen : '(' ∉ a) (hg : ∀ c ∈ g, isBlank c = true) :
    Silent j.recogniser before (a ++ (k.signal ++ g)) ('(' :: t) := by
  have hclass : ∀ c ∈ k.signal ++ g, inClause c = true :=
    List.forall_mem_append.mpr ⟨k.inClause_signal, fun c hc => inClause_of_isBlank (hg c hc)⟩
  refine j.silent_front before (List.forall_mem_append.mpr ⟨ha, fun c hc => ?_⟩) (fun hc => ?_)
    rfl rfl fun hsignal => ?_
  · exact not_isQuote_of_inClause (hclass c hc)
  · rcases List.mem_append.mp hc with hc | hc
    · exact hparen hc
    · exact absurd (hclass _ hc) (by decide)
  · by_cases hj : j.IsCall
    · exact absurd hsignal (Shape.not_isSuffix_trimRight hjk (iff_of_true hj hk) hg)
    · rw [Shape.opened?_eq_quoted? hj]
      exact quoted?_cons (c := '(') (by decide) t

theorem locates_named {k : Shape} (hk : ¬ k.IsCall) {a g p : List Char}
    (hclass : ∀ c ∈ a ++ (k.signal ++ g), inClause c = true)
    (hg : ∀ c ∈ g, isBlank c = true) (hp : Closes p)
    (hfinds : Finds k.recogniser before (a ++ (k.signal ++ g) ++ q.spelling)
      (p ++ ['\n'] ++ rest) [(0, q.text)]) :
    Locates before (a ++ (k.signal ++ g) ++ q.spelling ++ (p ++ ['\n'])) rest
      [(0, q.text)] := by
  refine Locates.of_find_here k (fun j hj => ?_) (by simp) ?_
  · rw [List.append_assoc _ q.spelling]
    exact silent_before_name hj hk hclass hg hp
  · exact hfinds.append (silent_closing k hp).finds

variable (q rest) in
theorem locates_from {w : String} {s g p : List Char} (hw : w ∈ Shape.clause.words)
    (hbefore : atWordStart before = true) (hs : ∀ c ∈ s, inClause c = true) (hne : s ≠ [])
    (hstart : ∀ c ∈ s.head?, isBlank c = true) (hend : ∀ c ∈ s.getLast?, isWord c = false)
    (hg : ∀ c ∈ g, isBlank c = true) (hp : Closes p) :
    Locates before (w.toList ++ s ++ ("from".toList ++ g) ++ q.spelling ++ (p ++ ['\n'])) rest
      [(0, q.text)] := by
  have hclass : ∀ c ∈ w.toList ++ s ++ ("from".toList ++ g), inClause c = true := by
    refine List.forall_mem_append.mpr ⟨List.forall_mem_append.mpr ⟨fun c hc => ?_, hs⟩,
      List.forall_mem_append.mpr ⟨Shape.clause.inClause_signal, fun c hc => ?_⟩⟩
    · exact inClause_of_isWord ((Shape.clause.words_isWord w hw).2 c hc)
    · exact inClause_of_isBlank (hg c hc)
  have hrest : Shape.clause.rest? (s ++ ("from".toList ++ (g ++ q.spelling)) ++
      (p ++ ['\n'] ++ rest)) = some (q.text, p ++ ['\n'] ++ rest) := by
    simp only [List.append_assoc]
    exact clauseAfter?_spelling q hs hne hstart hend hg _
  refine locates_named (k := .clause) (by decide) hclass hg hp ?_
  have hfinds := Shape.clause.finds hw hbefore hrest
  have htext : w.toList ++ (s ++ ("from".toList ++ (g ++ q.spelling))) =
      w.toList ++ s ++ (Shape.clause.signal ++ g) ++ q.spelling := by
    change _ = w.toList ++ s ++ ("from".toList ++ g) ++ q.spelling
    simp only [List.append_assoc]
  rwa [htext] at hfinds

variable (q rest) in
theorem locates_effect {g p : List Char} (hbefore : atWordStart before = true)
    (hg : ∀ c ∈ g, isBlank c = true) (hp : Closes p) :
    Locates before ("import".toList ++ g ++ q.spelling ++ (p ++ ['\n'])) rest
      [(0, q.text)] := by
  have hclass : ∀ c ∈ "import".toList ++ g, inClause c = true :=
    List.forall_mem_append.mpr
      ⟨Shape.bare.inClause_signal, fun c hc => inClause_of_isBlank (hg c hc)⟩
  have hrest : Shape.bare.rest? (g ++ q.spelling ++ (p ++ ['\n'] ++ rest)) =
      some (q.text, p ++ ['\n'] ++ rest) := by
    change quoted? (skipBlanks _) = _
    rw [List.append_assoc, skipBlanks_append hg, q.skipBlanks_spelling, q.quoted?_spelling]
  refine locates_named (k := .bare) (a := []) (by decide) hclass hg hp ?_
  have hfinds := Shape.bare.finds (w := "import") List.mem_cons_self hbefore hrest
  have htext : "import".toList ++ (g ++ q.spelling) =
      [] ++ (Shape.bare.signal ++ g) ++ q.spelling := by
    change _ = "import".toList ++ g ++ q.spelling
    rw [List.append_assoc]
  rwa [htext] at hfinds

variable (q rest) in
theorem locates_call {k : Shape} (hk : k.IsCall) {a g g' g'' p : List Char}
    (ha : ∀ c ∈ a, isQuote c = false) (hparen : '(' ∉ a)
    (hend : ∀ c ∈ a.getLast?.or before, isWord c = false)
    (hg : ∀ c ∈ g, isBlank c = true) (hg' : ∀ c ∈ g', isBlank c = true)
    (hg'' : ∀ c ∈ g'', isBlank c = true) (hp : Closes p) :
    Locates before (a ++ (k.signal ++ (g ++ '(' :: (g' ++ (q.spelling ++ (g'' ++ [')'])))) ++
      (p ++ ['\n']))) rest [(a.length, q.text)] := by
  obtain ⟨w, hw, hsignal⟩ := hk.exists_word
  refine Locates.of_find k (fun j hj => ?_) ?_ (by simp) ?_
  · have hbracket : ∀ c ∈ '(' :: g', isWord c = false := by
      refine List.forall_mem_cons.mpr ⟨by decide, fun c hc => isWord_of_isBlank (hg' c hc)⟩
    have hcloses : Closes (g'' ++ [')'] ++ p) :=
      ((Closes.of_isBlank hg'').append (closes_singleton (by decide) (by decide))).append hp
    have hrest : Silent j.recogniser ((a ++ (k.signal ++ g)).getLast?.or before)
        ('(' :: g' ++ (q.spelling ++ ((g'' ++ [')'] ++ p) ++ ['\n']))) rest :=
      Silent.append (j.silent_of_no_word _ hbracket) (silent_name j hcloses)
    have hall := Silent.append (silent_before_bracket hj hk ha hparen hg) hrest
    simpa using hall
  · -- A keyword before the call is followed by another word in front of the bracket.
    refine k.silent (.inl fun c hc => hend c ?_) fun v hv u z hz _ => ?_
    · rw [Option.mem_def] at hc ⊢
      rw [hc, Option.some_or]
    have hstart : argument? (k.signal ++ (g ++ '(' :: (g' ++ (q.spelling ++ (g'' ++ [')'])))) ++
      (p ++ ['\n']) ++ rest) = none := by
      rcases hk with rfl | rfl <;> exact argument?_cons (by decide) (by decide) _
    rw [hk.rest?_eq]
    refine argument?_append (fun hc => hparen ?_) _ fun _ => hstart
    rw [← hz]
    simp [hc]
  · have hrest : k.rest? (g ++ '(' :: (g' ++ (q.spelling ++ (g'' ++ [')']))) ++
        (p ++ ['\n'] ++ rest)) = some (q.text, p ++ ['\n'] ++ rest) := by
      rw [hk.rest?_eq]
      have hargument := argument?_spelling q hg hg' hg'' (p ++ ['\n'] ++ rest)
      simpa using hargument
    have hboth := (k.finds hw (atWordStart_iff.mpr hend) hrest).append
      (silent_closing k hp).finds
    rw [hsignal] at hboth
    simpa using hboth

end Pieces

end ChangeImpact.Imports.EcmaScript
