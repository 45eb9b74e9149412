import ChangeImpact.Proofs.Imports.Python.Grammar
import ChangeImpact.Proofs.Imports.Segments

/-!
# Lines without a statement

A statement is found only where a line begins with its keyword and a blank or tab. The lines on
which a list of names goes on begin otherwise, so that in the text of one item nothing is found
but what is found at its start.
-/

namespace ChangeImpact.Imports.Python

open Text

namespace Keyword

def all : List Keyword := [import_, from_]

def recogniser : Keyword → Recogniser (List (List Char))
  | import_ => importStatement
  | from_ => fun before s =>
    (fromStatement before s).map fun ((module, names), size) => (referred module names, size)

theorem inIdentifier_of_mem_word (k : Keyword) : ∀ c ∈ k.word, inIdentifier c = true := by
  have hword : k.word.all isWord = true := by cases k <;> decide
  exact fun c hc => inIdentifier_of_isWord (List.all_eq_true.mp hword c hc)

theorem exists_cons (k : Keyword) : ∃ c r, k.word = c :: r ∧ inIdentifier c = true := by
  obtain ⟨c, r, hk⟩ : ∃ c r, k.word = c :: r := by
    cases k <;> exact ⟨_, _, rfl⟩
  exact ⟨c, r, hk, k.inIdentifier_of_mem_word c (hk ▸ List.mem_cons_self)⟩

end Keyword

section Opens

variable {k : Keyword} {before : Option Char} {s rest : List Char}

theorem skipMargin_blanks (b : Blanks) (s : List Char) : skipMargin (b.text ++ s) = skipMargin s :=
  List.dropWhile_append_of_pos b.isMargin

def Opens (k : Keyword) (s : List Char) : Prop :=
  ∃ c r, skipMargin s = k.word ++ c :: r ∧ isMargin c = true

theorem inIdentifier_of_isMargin {c : Char} (h : isMargin c = true) : inIdentifier c = false := by
  rcases isMargin_iff.mp h with rfl | rfl <;> decide

theorem Opens.beginsWith (h : Opens k s) : BeginsWith k s := by
  obtain ⟨c, r, hs, hc⟩ := h
  exact ⟨c :: r, hs, forall_head?_cons.mpr (inIdentifier_of_isMargin hc)⟩

theorem bind_margin?_of_not_opens (h : ¬ Opens k s) :
    (after? k.word (skipMargin s)).bind margin? = none := by
  cases hafter : after? k.word (skipMargin s) with
  | none => rfl
  | some r =>
    rw [Option.bind_some, margin?, if_pos]
    rw [List.isEmpty_iff]
    cases r with
    | nil => rfl
    | cons c r =>
      rw [List.takeWhile_cons, if_neg]
      exact fun hc => h ⟨c, r, after?_eq_some.mp hafter, hc⟩

theorem importStatement_of_not_opens (h : ¬ Opens .import_ s) :
    importStatement before s = none := by
  rw [importStatement]
  split
  · simp only [Option.bind_eq_bind]
    rw [← Option.bind_assoc]
    exact congrArg (Option.bind · _) (bind_margin?_of_not_opens h)
  · rfl

theorem fromStatement_of_not_opens (h : ¬ Opens .from_ s) : fromStatement before s = none := by
  rw [fromStatement]
  split
  · simp only [Option.bind_eq_bind]
    rw [← Option.bind_assoc]
    exact congrArg (Option.bind · _) (bind_margin?_of_not_opens h)
  · rfl

theorem recogniser_of_not_opens (h : ¬ Opens k s) : k.recogniser before s = none := by
  cases k with
  | import_ => exact importStatement_of_not_opens h
  | from_ => exact Option.map_eq_none_iff.mpr (fromStatement_of_not_opens h)

theorem recogniser_of_inside (h : atLineStart before = false) : k.recogniser before s = none := by
  have hinside : ¬ atLineStart before = true := by rw [h]; exact Bool.false_ne_true
  cases k with
  | import_ => exact if_neg hinside
  | from_ => exact Option.map_eq_none_iff.mpr (if_neg hinside)

theorem not_opens_cons {c : Char} (hmargin : isMargin c = false) (hc : inIdentifier c = false) :
    ¬ Opens k (c :: s) := by
  rintro ⟨d, r, hs, -⟩
  obtain ⟨e, t, hk, he⟩ := k.exists_cons
  rw [skipMargin_of_head (forall_head?_cons.mpr hmargin), hk] at hs
  rw [(List.cons.inj hs).1, he] at hc
  exact Bool.false_ne_true hc.symm

theorem not_opens_newline (hs : ∀ c ∈ s.head?, c = '\n') : ¬ Opens k s := by
  cases s with
  | nil =>
    rintro ⟨d, r, hs, -⟩
    simp [skipMargin] at hs
  | cons c r =>
    obtain rfl := hs c rfl
    exact not_opens_cons rfl (by decide)

theorem opens_blanks {b : Blanks} : Opens k (b.text ++ s) ↔ Opens k s := by
  rw [Opens, skipMargin_blanks, Opens]

/-- What stands on the next line does not make a line open. -/
theorem Opens.of_append (hrest : ∀ c ∈ rest.head?, c = '\n') (h : Opens k (s ++ rest)) :
    Opens k s := by
  obtain ⟨c, r, hs, hc⟩ := h
  have hnewline : '\n' ∉ k.word ++ [c] := fun hmem => by
    rcases List.mem_append.mp hmem with hmem | hmem
    · exact absurd (k.inIdentifier_of_mem_word _ hmem) (by decide)
    · rw [← List.mem_singleton.mp hmem] at hc
      exact absurd hc (by decide)
  obtain ⟨w, hw⟩ := prefix_skipMargin_of_append hnewline hrest
    ⟨r, by rw [hs, List.append_assoc, List.singleton_append]⟩
  exact ⟨c, w, by rw [← hw, List.append_assoc, List.singleton_append], hc⟩

theorem Identifier.not_opens (i : Identifier) (hs : ∀ c ∈ s.head?, inIdentifier c = false) :
    ¬ Opens k (i.text ++ s) := by
  rintro ⟨c, r, heq, hc⟩
  obtain ⟨d, t, hi, hd⟩ := i.exists_cons
  have hskip : skipMargin (i.text ++ s) = i.text ++ s := by
    rw [hi]
    exact skipMargin_of_head (forall_head?_cons.mpr (isMargin_of_inIdentifier hd))
  have hword := k.inIdentifier_of_mem_word
  have hbehind : ∀ d ∈ (c :: r).head?, inIdentifier d = false :=
    forall_head?_cons.mpr (inIdentifier_of_isMargin hc)
  have hsame := congrArg (List.takeWhile inIdentifier) (hskip.symm.trans heq)
  rw [takeWhile_append_of_head i.isPart hs, takeWhile_append_of_head hword hbehind] at hsame
  exact i.noKeyword k hsame

end Opens

/-! ## Quiet texts -/

section Quiet

variable {k : Keyword} {before : Option Char} {s t u v rest : List Char}

def Quiet (s : List Char) : Prop := ∀ u v, s = u ++ '\n' :: v → ∀ k, ¬ Opens k v

theorem quiet_of_newline_notMem (h : '\n' ∉ s) : Quiet s := linesBehind_of_notMem h

theorem quiet_newline : Quiet ('\n' :: s) ↔ (∀ k, ¬ Opens k s) ∧ Quiet s := linesBehind_newline

theorem Quiet.append_left (h : Quiet s) (hu : '\n' ∉ u) : Quiet (u ++ s) :=
  LinesBehind.append_left h hu

theorem recogniser_atLines (k : Keyword) : AtLines k.recogniser :=
  fun _ _ h => recogniser_of_inside h

theorem recogniser_of_line (hrest : ∀ c ∈ rest.head?, c = '\n') (before : Option Char)
    (v : List Char) (h : ∀ k, ¬ Opens k v) : k.recogniser before (v ++ rest) = none :=
  recogniser_of_not_opens fun hopens => h k (hopens.of_append hrest)

theorem Quiet.silent_behind (h : Quiet (s ++ t)) (hs : s ≠ [])
    (hrest : ∀ c ∈ rest.head?, c = '\n') : Silent k.recogniser (s.getLast?.or before) t rest :=
  (recogniser_atLines k).silent_behind (recogniser_of_line hrest) h hs

theorem Quiet.silent (h : Quiet s) (hrest : ∀ c ∈ rest.head?, c = '\n')
    (hfirst : k.recogniser before (s ++ rest) = none) : Silent k.recogniser before s rest :=
  (recogniser_atLines k).silent (recogniser_of_line hrest) h hfirst

end Quiet

/-! ## The texts of a list over several lines -/

section Texts

variable {s : List Char}

theorem Blanks.newline_notMem (b : Blanks) : '\n' ∉ b.text := fun h =>
  absurd (b.isMargin _ h) (by decide)

theorem LineEnd.newline_notMem (e : LineEnd) : '\n' ∉ e.text := by
  rw [text, List.mem_append, not_or]
  refine ⟨e.blanks.newline_notMem, ?_⟩
  cases e.comment with
  | none => exact List.not_mem_nil
  | some c => exact List.not_mem_cons_of_ne_of_not_mem (by decide) c.oneLine

theorem LineEnd.not_opens (e : LineEnd) (hs : ∀ c ∈ s.head?, c = '\n') (k : Keyword) :
    ¬ Opens k (e.text ++ s) := by
  rw [text, List.append_assoc, opens_blanks]
  cases e.comment with
  | none => exact not_opens_newline hs
  | some c => exact not_opens_cons (by decide) (by decide)

theorem LineEnd.quiet (e : LineEnd) (hs : ∀ c ∈ s.head?, c = '\n') (h : Quiet s) :
    Quiet ('\n' :: (e.text ++ s)) :=
  quiet_newline.mpr ⟨e.not_opens hs, h.append_left e.newline_notMem⟩

theorem Space.text_cons (e : LineEnd) (ends : List LineEnd) (b : Blanks) :
    Space.text ⟨e :: ends, b⟩ = e.text ++ '\n' :: Space.text ⟨ends, b⟩ := by
  simp only [text, List.flatMap_cons, List.append_assoc, List.cons_append, List.nil_append]

theorem Space.quiet (sp : Space) (h : Quiet ('\n' :: s)) : Quiet ('\n' :: (sp.text ++ s)) := by
  obtain ⟨ends, b⟩ := sp
  induction ends with
  | nil =>
    obtain ⟨hfirst, hs⟩ := quiet_newline.mp h
    refine quiet_newline.mpr ⟨fun k => ?_, hs.append_left b.newline_notMem⟩
    exact fun hopens => hfirst k (opens_blanks.mp hopens)
  | cons e ends ih =>
    rw [text_cons, List.append_assoc, List.cons_append]
    exact e.quiet (forall_head?_cons.mpr rfl) ih

theorem Blanks.head (b : Blanks) (hs : b.text ≠ [] ∨ ∀ c ∈ s.head?, inIdentifier c = false) :
    ∀ c ∈ (b.text ++ s).head?, inIdentifier c = false := by
  cases hb : b.text with
  | nil => exact hs.resolve_left (not_not_intro hb)
  | cons c r =>
    exact forall_head?_cons.mpr (inIdentifier_of_isMargin (b.isMargin c (by simp [hb])))

theorem Space.head (sp : Space) (hs : sp.text ≠ [] ∨ ∀ c ∈ s.head?, inIdentifier c = false) :
    ∀ c ∈ (sp.text ++ s).head?, inIdentifier c = false := by
  obtain ⟨ends, b⟩ := sp
  cases ends with
  | nil => exact b.head hs
  | cons e ends =>
    rw [text_cons, LineEnd.text, List.append_assoc, List.append_assoc]
    refine e.blanks.head (.inr ?_)
    cases e.comment with
    | none => exact forall_head?_cons.mpr (by decide)
    | some c => exact forall_head?_cons.mpr (by decide)

theorem Identifier.newline_notMem (i : Identifier) : '\n' ∉ i.text := fun h =>
  notMem_marks_of_inIdentifier (i.isPart _ h) (by decide)

theorem Identifier.quiet (i : Identifier) (hs : ∀ c ∈ s.head?, inIdentifier c = false)
    (h : Quiet ('\n' :: s)) : Quiet ('\n' :: (i.text ++ s)) :=
  quiet_newline.mpr
    ⟨fun _ => i.not_opens hs, (quiet_newline.mp h).2.append_left i.newline_notMem⟩

theorem quiet_mark {c : Char} (hmargin : isMargin c = false) (hc : inIdentifier c = false)
    (hline : '\n' ≠ c) (h : Quiet ('\n' :: s)) : Quiet ('\n' :: c :: s) :=
  quiet_newline.mpr ⟨fun _ => not_opens_cons hmargin hc,
    Quiet.append_left (u := [c]) (quiet_newline.mp h).2 (List.mem_singleton.not.mpr hline)⟩

def asWord : Identifier where
  text := "as".toList
  ne_nil := by decide
  isPart := List.all_eq_true.mp (by decide)
  noKeyword := by
    intro k
    cases k <;> decide

theorem Member.quiet (m : Member) (hs : ∀ c ∈ s.head?, inIdentifier c = false)
    (h : Quiet ('\n' :: s)) : Quiet ('\n' :: (m.text ++ s)) := by
  have happart := m.apart
  simp only [text, tail, List.append_assoc]
  cases hrenamed : m.renamed with
  | none => exact m.name.quiet (m.behind.head (.inr hs)) (m.behind.quiet h)
  | some r =>
    rw [hrenamed] at happart
    have hbehind := happart rfl
    simp only [Option.elim_some, Renaming.text, List.append_assoc]
    refine m.name.quiet (m.behind.head (.inl hbehind)) (m.behind.quiet ?_)
    refine asWord.quiet (r.toName.head (.inl r.apart)) (r.toName.quiet ?_)
    exact r.name.quiet (r.behind.head (.inr hs)) (r.behind.quiet h)

theorem quiet_comma (h : Quiet ('\n' :: s)) : Quiet ('\n' :: ',' :: s) :=
  quiet_mark (by decide) (by decide) (by decide) h

theorem Members.quiet (l : Members) (hs : ∀ c ∈ s.head?, inIdentifier c = false)
    (h : Quiet ('\n' :: s)) : Quiet ('\n' :: (l.text ++ s)) := by
  have hcomma (x : List Char) : ∀ c ∈ (',' :: x).head?, inIdentifier c = false :=
    forall_head?_cons.mpr (by decide)
  induction l with
  | last m comma =>
    rw [text, List.append_assoc]
    cases comma with
    | none => exact m.quiet hs h
    | some sp => exact m.quiet (hcomma _) (quiet_comma (sp.quiet h))
  | more m comma rest ih =>
    simp only [text, List.append_assoc, List.cons_append]
    exact m.quiet (hcomma _) (quiet_comma (comma.quiet ih))

theorem Members.newline_notMem {l : Members} (h : l.OneLine) : '\n' ∉ l.text := by
  have hcomma (x : List Char) (hx : '\n' ∉ x) : '\n' ∉ ',' :: x :=
    List.not_mem_cons_of_ne_of_not_mem (by decide) hx
  induction l with
  | last m comma =>
    obtain ⟨hm, hnone⟩ := h
    rw [text, Option.isNone_iff_eq_none.mp hnone]
    simpa using hm
  | more m comma rest ih =>
    obtain ⟨hm, hspace, hrest⟩ := h
    rw [text, List.mem_append, not_or]
    refine ⟨hm, hcomma _ ?_⟩
    rw [List.mem_append, not_or]
    exact ⟨hspace, ih hrest⟩

theorem Choice.quiet (choice : Choice) (ending : LineEnd) :
    Quiet (choice.text ++ ending.text) := by
  have hending : Quiet ending.text := quiet_of_newline_notMem ending.newline_notMem
  cases choice with
  | star => exact Quiet.append_left (u := ['*']) hending (by decide)
  | plain members oneLine => exact hending.append_left (Members.newline_notMem oneLine)
  | enclosed opening members =>
    have hfirst : Quiet ('\n' :: ending.text) := by
      have hline := ending.quiet (s := []) (fun c => nofun) (quiet_of_newline_notMem nofun)
      rwa [List.append_nil] at hline
    have hclose : Quiet ('\n' :: ([')'] ++ ending.text)) :=
      quiet_mark (by decide) (by decide) (by decide) hfirst
    have hlist := opening.quiet (members.quiet (forall_head?_cons.mpr (by decide)) hclose)
    simp only [text, List.cons_append, List.append_assoc]
    exact Quiet.append_left (u := ['(']) (quiet_newline.mp hlist).2 (by decide)

theorem Dotted.newline_notMem (d : Dotted) : '\n' ∉ d.text := fun h =>
  (d.inIdentifier_or_dot _ h).elim
    (fun hc => notMem_marks_of_inIdentifier hc (by decide)) (by decide)

theorem Imported.newline_notMem (i : Imported) : '\n' ∉ i.text := by
  rw [text, List.mem_append, not_or]
  refine ⟨i.module.newline_notMem, ?_⟩
  cases i.renamed with
  | none => exact List.not_mem_nil
  | some a =>
    simp only [Option.elim_some, Alias.text, List.mem_append, not_or]
    exact ⟨a.toAs.newline_notMem, by decide, a.toName.newline_notMem, a.name.newline_notMem⟩

theorem Modules.newline_notMem (l : Modules) : '\n' ∉ l.text := by
  induction l with
  | last i => exact i.newline_notMem
  | more i before behind rest ih =>
    simp only [text, List.mem_append, List.mem_cons, not_or]
    exact ⟨i.newline_notMem, before.newline_notMem, by decide, behind.newline_notMem, ih⟩

theorem ImportLine.newline_notMem (l : ImportLine) : '\n' ∉ l.text := by
  simp only [text, List.mem_append, not_or]
  exact ⟨l.margin.newline_notMem, by decide, l.toModules.newline_notMem,
    l.modules.newline_notMem, l.ending.newline_notMem⟩

theorem Origin.newline_notMem (o : Origin) : '\n' ∉ o.text := fun h =>
  (o.inIdentifier_or_dot _ h).elim
    (fun hc => notMem_marks_of_inIdentifier hc (by decide)) (by decide)

theorem FromLine.quiet (l : FromLine) : Quiet l.text := by
  refine Quiet.append_left ?_ l.margin.newline_notMem
  refine Quiet.append_left ?_ (by decide)
  refine Quiet.append_left ?_ l.toModule.newline_notMem
  refine Quiet.append_left ?_ l.origin.newline_notMem
  refine Quiet.append_left ?_ l.toImport.newline_notMem
  refine Quiet.append_left ?_ (by decide)
  exact (l.choice.quiet l.ending).append_left l.toNames.newline_notMem

end Texts

/-! ## What is found in an item -/

section Found

variable {k : Keyword} {before : Option Char} {s t rest : List Char}
  {names names' : List (List Char)} {isRead isRead' : Prop}

def ReadsAs (k : Keyword) (before : Option Char) (s rest : List Char) (names : List (List Char))
    (isRead : Prop) : Prop :=
  (k.recogniser before (s ++ rest) = none ∧ ¬ isRead) ∨
    ∃ read used left, used ++ left = s ∧ used ≠ [] ∧
      k.recogniser before (s ++ rest) = some (read, used.length) ∧
      read.length ≤ names.length ∧ (read = names ↔ isRead)

def Gives (before : Option Char) (s rest : List Char) (names : List (List Char)) (isRead : Prop) :
    Prop :=
  ∃ located, LocatesBy Keyword.all Keyword.recogniser before s rest located ∧
    (located.flatMap (·.2)).length ≤ names.length ∧ (located.flatMap (·.2) = names ↔ isRead)

theorem Gives.of_silent (h : ∀ k : Keyword, Silent k.recogniser before s rest) :
    Gives before s rest [] True :=
  ⟨[], .of_silent h, Nat.le_refl _, iff_of_true rfl trivial⟩

theorem ReadsAs.gives (h : ReadsAs k before s rest names isRead) (hnames : names ≠ [])
    (hs : Quiet s) (hrest : ∀ c ∈ rest.head?, c = '\n') (hothers : ∀ j, j ≠ k → ¬ Opens j s) :
    Gives before s rest names isRead := by
  have hsilent (j : Keyword) (hj : j ≠ k) : Silent j.recogniser before s rest :=
    hs.silent hrest (recogniser_of_not_opens fun hopens => hothers j hj (hopens.of_append hrest))
  rcases h with ⟨hnone, hunread⟩ | ⟨read, used, left, rfl, hne, hread, hle, hiff⟩
  · refine ⟨[], .of_silent fun j => ?_, Nat.zero_le _, iff_of_false hnames.symm hunread⟩
    by_cases hj : j = k
    · subst hj
      exact hs.silent hrest hnone
    · exact hsilent j hj
  · rw [List.append_assoc] at hread
    have hfound : LocatesBy Keyword.all Keyword.recogniser before used (left ++ rest)
        [(0, read)] := by
      exact LocatesBy.of_find (u := []) (by decide) (by cases k <;> decide)
        (fun j hj => (hsilent j hj).left) silent_nil hne (finds_of_find hne hread)
    have hleft : LocatesBy Keyword.all Keyword.recogniser (used.getLast?.or before) left rest [] :=
      .of_silent fun j => hs.silent_behind hne hrest
    refine ⟨_, hfound.append hleft, ?_, ?_⟩
    · simpa using hle
    · simpa using hiff

theorem Gives.append (hs : Gives before s (t ++ rest) names isRead)
    (ht : Gives (s.getLast?.or before) t rest names' isRead') :
    Gives before (s ++ t) rest (names ++ names') (isRead ∧ isRead') := by
  obtain ⟨located, hfound, hle, hiff⟩ := hs
  obtain ⟨located', hfound', hle', hiff'⟩ := ht
  refine ⟨_, hfound.append hfound', ?_, ?_⟩
  · simp only [List.flatMap_append, List.flatMap_map, List.length_append]
    exact Nat.add_le_add hle hle'
  · simp only [List.flatMap_append, List.flatMap_map]
    rw [← hiff, ← hiff', append_eq_append_iff_of_le hle hle']

end Found

end ChangeImpact.Imports.Python
