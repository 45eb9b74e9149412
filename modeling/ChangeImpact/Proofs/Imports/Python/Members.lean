import ChangeImpact.Proofs.Imports.Python.Lines
import ChangeImpact.Proofs.Imports.Statement

/-!
# How a list of names is read

Comments are cut out of a list and its names are the first words between the commas. Before that
the list is cut at its first closing parenthesis or at the end of its line. So all names are read
unless a comment before one of them holds the character at which the list is cut.
-/

namespace ChangeImpact.Imports.Python

open Text

/-! ## Comments -/

section Comments

variable {s t : List Char}

theorem exists_withoutComments_append (b : Bool) (s t : List Char) :
    ∃ b', withoutComments b (s ++ t) = withoutComments b s ++ withoutComments b' t := by
  induction s generalizing b with
  | nil => exact ⟨b, rfl⟩
  | cons c r ih =>
    rw [List.cons_append, withoutComments, withoutComments]
    split
    · obtain ⟨b', h⟩ := ih false
      exact ⟨b', by rw [h, List.cons_append]⟩
    · split
      · exact ih true
      · obtain ⟨b', h⟩ := ih false
        exact ⟨b', by rw [h, List.cons_append]⟩

theorem withoutComments_isPrefix (b : Bool) (h : s <+: t) :
    withoutComments b s <+: withoutComments b t := by
  obtain ⟨u, rfl⟩ := h
  obtain ⟨b', happend⟩ := exists_withoutComments_append b s u
  exact ⟨_, happend.symm⟩

def Closed (s : List Char) : Prop :=
  ∀ t, withoutComments false (s ++ t) = withoutComments false s ++ withoutComments false t

theorem Closed.append (hs : Closed s) (ht : Closed t) : Closed (s ++ t) := fun u => by
  rw [List.append_assoc, hs, hs, ht, List.append_assoc]

theorem withoutComments_of_notMem (h : '#' ∉ s) : withoutComments false s = s := by
  have hnil := withoutComments_append h []
  rwa [List.append_nil, withoutComments, List.append_nil] at hnil

theorem closed_of_notMem (h : '#' ∉ s) : Closed s := fun t => by
  rw [withoutComments_append h, withoutComments_of_notMem h]

theorem Blanks.isBlank (b : Blanks) : ∀ c ∈ b.text, isBlank c = true := fun c hc => by
  rcases isMargin_iff.mp (b.isMargin c hc) with rfl | rfl <;> decide

theorem Blanks.hash_notMem (b : Blanks) : '#' ∉ b.text := fun h =>
  absurd (b.isMargin _ h) (by decide)

theorem LineEnd.withoutComments_append (e : LineEnd) (ht : ∀ c ∈ t.head?, c = '\n') :
    withoutComments false (e.text ++ t) = e.blanks.text ++ withoutComments false t := by
  rw [text, List.append_assoc, Python.withoutComments_append e.blanks.hash_notMem]
  cases e.comment with
  | none => rfl
  | some c =>
    have hend : withoutComments true t = withoutComments false t := by
      cases t with
      | nil => rfl
      | cons d r =>
        obtain rfl := ht d rfl
        rfl
    rw [Option.elim_some, Comment.spelling, List.cons_append, withoutComments,
      withoutComments_true_append c.oneLine, hend]
    rfl

theorem LineEnd.withoutComments_text (e : LineEnd) :
    withoutComments false e.text = e.blanks.text := by
  have hnil := e.withoutComments_append (t := []) nofun
  rwa [List.append_nil, withoutComments, List.append_nil] at hnil

theorem Space.withoutComments_cons (e : LineEnd) (ends : List LineEnd) (b : Blanks)
    (t : List Char) : withoutComments false (Space.text ⟨e :: ends, b⟩ ++ t) =
      e.blanks.text ++ '\n' :: withoutComments false (Space.text ⟨ends, b⟩ ++ t) := by
  rw [text_cons, List.append_assoc, List.cons_append,
    e.withoutComments_append (forall_head?_cons.mpr rfl), withoutComments]
  rfl

theorem Space.withoutComments_nil (b : Blanks) :
    withoutComments false (Space.text ⟨[], b⟩) = b.text :=
  withoutComments_of_notMem b.hash_notMem

theorem Space.withoutComments_ends (e : LineEnd) (ends : List LineEnd) (b : Blanks) :
    withoutComments false (Space.text ⟨e :: ends, b⟩) =
      e.blanks.text ++ '\n' :: withoutComments false (Space.text ⟨ends, b⟩) := by
  have hnil := withoutComments_cons e ends b []
  rwa [List.append_nil, List.append_nil] at hnil

theorem Space.closed (sp : Space) : Closed sp.text := by
  obtain ⟨ends, b⟩ := sp
  induction ends with
  | nil => exact closed_of_notMem b.hash_notMem
  | cons e ends ih =>
    intro t
    rw [withoutComments_cons, ih t, withoutComments_ends, List.append_assoc, List.cons_append]

theorem Space.isBlank (sp : Space) : ∀ c ∈ withoutComments false sp.text, isBlank c = true := by
  obtain ⟨ends, b⟩ := sp
  induction ends with
  | nil =>
    rw [withoutComments_nil]
    exact b.isBlank
  | cons e ends ih =>
    rw [withoutComments_ends]
    exact List.forall_mem_append.mpr ⟨e.blanks.isBlank, List.forall_mem_cons.mpr ⟨by decide, ih⟩⟩

theorem Space.ne_nil (sp : Space) (h : sp.text ≠ []) : withoutComments false sp.text ≠ [] := by
  obtain ⟨ends, b⟩ := sp
  cases ends with
  | nil => rwa [withoutComments_nil]
  | cons e ends => simp [withoutComments_ends]

theorem Identifier.hash_notMem (i : Identifier) : '#' ∉ i.text := fun h =>
  notMem_marks_of_inIdentifier (i.isPart _ h) (by decide)

theorem Identifier.closed (i : Identifier) : Closed i.text := closed_of_notMem i.hash_notMem

theorem Renaming.closed (r : Renaming) : Closed r.text :=
  asWord.closed.append (r.toName.closed.append (r.name.closed.append r.behind.closed))

theorem Member.closed_tail (m : Member) : Closed m.tail := by
  refine m.behind.closed.append ?_
  cases m.renamed with
  | none => exact closed_of_notMem List.not_mem_nil
  | some r => exact r.closed

theorem Member.closed (m : Member) : Closed m.text := m.name.closed.append m.closed_tail

def IsContent (s : List Char) : Prop := ∀ c ∈ s, isBlank c = true ∨ inIdentifier c = true

theorem IsContent.notMem {c : Char} (h : IsContent s) (hc : c ∈ [',', '(', ')', '#']) :
    c ∉ s := by
  have hmarks : [',', '(', ')', '#'].all fun c => !isBlank c && !inIdentifier c := by decide
  have hneither := List.all_eq_true.mp hmarks c hc
  intro hmem
  rcases h c hmem with hblank | hidentifier
  · simp [hblank] at hneither
  · simp [hidentifier] at hneither

theorem Space.isContent (sp : Space) : IsContent (withoutComments false sp.text) := fun c hc =>
  .inl (sp.isBlank c hc)

theorem Identifier.isContent (i : Identifier) : IsContent (withoutComments false i.text) := by
  rw [withoutComments_of_notMem i.hash_notMem]
  exact fun c hc => .inr (i.isPart c hc)

theorem IsContent.append (h : Closed s) (hs : IsContent (withoutComments false s))
    (ht : IsContent (withoutComments false t)) : IsContent (withoutComments false (s ++ t)) := by
  rw [h]
  exact List.forall_mem_append.mpr ⟨hs, ht⟩

theorem Member.isContent_tail (m : Member) : IsContent (withoutComments false m.tail) := by
  refine .append m.behind.closed m.behind.isContent ?_
  cases m.renamed with
  | none => exact List.forall_mem_nil _
  | some r =>
    refine .append asWord.closed asWord.isContent ?_
    refine .append r.toName.closed r.toName.isContent ?_
    exact .append r.name.closed r.name.isContent r.behind.isContent

theorem Member.isContent (m : Member) : IsContent (withoutComments false m.text) :=
  .append m.name.closed m.name.isContent m.isContent_tail

theorem Member.isBlank_head (m : Member) :
    ∀ c ∈ (withoutComments false m.tail).head?, isBlank c = true := by
  have happart := m.apart
  rw [tail, m.behind.closed]
  cases hrenamed : m.renamed with
  | none =>
    rw [Option.elim_none, withoutComments, List.append_nil]
    exact fun c hc => m.behind.isBlank c (List.mem_of_head? hc)
  | some r =>
    rw [hrenamed] at happart
    rw [List.head?_append_of_ne_nil _ (m.behind.ne_nil (happart rfl))]
    exact fun c hc => m.behind.isBlank c (List.mem_of_head? hc)

end Comments

/-! ## Lists that are cut -/

section Cut

variable {stop : Char} {s : List Char}

def upTo (stop : Char) (s : List Char) : List Char := s.takeWhile (· != stop)

theorem upTo_append_of_notMem (h : stop ∉ s) (t : List Char) :
    upTo stop (s ++ t) = s ++ upTo stop t :=
  takeWhile_ne_append h t

theorem upTo_of_notMem (h : stop ∉ s) : upTo stop s = s := by
  have hnil := upTo_append_of_notMem h []
  have hempty : upTo stop [] = [] := rfl
  rwa [hempty, List.append_nil] at hnil

theorem upTo_append_of_mem (h : stop ∈ s) (t : List Char) : upTo stop (s ++ t) = upTo stop s := by
  obtain ⟨u, v, rfl, hu⟩ := List.eq_append_cons_of_mem h
  rw [List.append_assoc, upTo_append_of_notMem hu, upTo_append_of_notMem hu]
  simp [upTo]

theorem upTo_isPrefix (stop : Char) (s : List Char) : upTo stop s <+: s := List.takeWhile_prefix _

theorem Identifier.notMem (hstop : inIdentifier stop = false) (i : Identifier) : stop ∉ i.text :=
  fun h => Bool.false_ne_true (hstop.symm.trans (i.isPart _ h))

namespace Member

theorem firstWords_name (m : Member) (hs : s <+: withoutComments false m.tail) :
    firstWords (m.name.text ++ s) = [m.name.text] := by
  have hname : ∀ c ∈ m.name.text, Text.isBlank c = false := fun c hc =>
    isBlank_of_inIdentifier (m.name.isPart c hc)
  refine firstWords_word m.name.ne_nil hname (fun c hc => ?_) ?_
  · obtain ⟨u, hu⟩ := hs
    refine m.isBlank_head c ?_
    rw [← hu, List.head?_append, hc]
    rfl
  · rw [List.mem_append, not_or]
    exact ⟨m.name.notMem (by decide),
      fun hmem => m.isContent_tail.notMem (by decide) (hs.subset hmem)⟩

theorem firstWords_upTo (hstop : inIdentifier stop = false) (m : Member) (h : stop ∈ m.text)
    (t : List Char) : firstWords (withoutComments false (upTo stop (m.text ++ t))) =
      [m.name.text] := by
  rw [upTo_append_of_mem h, text, upTo_append_of_notMem (m.name.notMem hstop),
    withoutComments_append m.name.hash_notMem]
  exact m.firstWords_name (withoutComments_isPrefix false (upTo_isPrefix stop m.tail))

theorem withoutComments_upTo (m : Member) (h : stop ∉ m.text) (t : List Char) :
    withoutComments false (upTo stop (m.text ++ t)) =
      (m.name.text ++ withoutComments false m.tail) ++ withoutComments false (upTo stop t) := by
  rw [upTo_append_of_notMem h, m.closed, text, withoutComments_append m.name.hash_notMem]

end Member

theorem Space.firstWords_upTo (sp : Space) (stop : Char) (t : List Char) :
    firstWords (withoutComments false (upTo stop (sp.text ++ t))) =
      if stop ∈ sp.text then [] else firstWords (withoutComments false (upTo stop t)) := by
  split
  next h =>
    rw [upTo_append_of_mem h]
    refine firstWords_of_blank fun c hc => sp.isBlank c ?_
    exact (withoutComments_isPrefix false (upTo_isPrefix stop sp.text)).subset hc
  next h => rw [upTo_append_of_notMem h, sp.closed, firstWords_blank_append sp.isBlank]

namespace Members

/-- The names that are read of a list which is cut at the first `stop`. -/
def cut (stop : Char) : Members → List (List Char)
  | last m _ => [m.name.text]
  | more m comma rest =>
    if stop ∈ m.text ∨ stop ∈ comma.text then [m.name.text] else m.name.text :: rest.cut stop

theorem names_ne_nil (l : Members) : l.names ≠ [] := by
  cases l <;> exact List.cons_ne_nil _ _

theorem cut_isPrefix (stop : Char) (l : Members) : l.cut stop <+: l.names := by
  induction l with
  | last m comma => exact List.prefix_refl _
  | more m comma rest ih =>
    rw [cut, names]
    split
    · exact ⟨rest.names, rfl⟩
    · exact List.cons_prefix_cons.mpr ⟨rfl, ih⟩

theorem cut_eq_names_iff {l : Members} : l.cut stop = l.names ↔ l.ReadUpTo stop := by
  induction l with
  | last m comma => exact iff_of_true rfl trivial
  | more m comma rest ih =>
    rw [cut, names, ReadUpTo]
    split
    next h =>
      refine iff_of_false (fun heq => rest.names_ne_nil (List.cons.inj heq).2.symm) fun hread => ?_
      exact h.elim hread.1 hread.2.1
    next h =>
      rw [not_or] at h
      rw [List.cons.injEq, and_iff_right rfl, ih, and_iff_right h.1, and_iff_right h.2]

theorem firstWords_comma (hstop : inIdentifier stop = false) (hcomma : stop ≠ ',') (m : Member)
    (sp : Space) (t : List Char) :
    firstWords (withoutComments false (upTo stop (m.text ++ ',' :: (sp.text ++ t)))) =
      if stop ∈ m.text ∨ stop ∈ sp.text then [m.name.text]
      else m.name.text :: firstWords (withoutComments false (upTo stop t)) := by
  by_cases hm : stop ∈ m.text
  · rw [if_pos (.inl hm), m.firstWords_upTo hstop hm]
  · have hmark : withoutComments false (upTo stop (',' :: (sp.text ++ t))) =
        ',' :: withoutComments false (upTo stop (sp.text ++ t)) := by
      have hone := upTo_append_of_notMem (s := [',']) (List.mem_singleton.not.mpr hcomma)
        (sp.text ++ t)
      rw [List.singleton_append] at hone
      rw [hone]
      rfl
    rw [m.withoutComments_upTo hm, hmark, firstWords_append_comma,
      m.firstWords_name (List.prefix_refl _), sp.firstWords_upTo, List.singleton_append]
    by_cases hsp : stop ∈ sp.text
    · rw [if_pos hsp, if_pos (.inr hsp)]
    · rw [if_neg hsp, if_neg (not_or.mpr ⟨hm, hsp⟩)]

theorem firstWords_upTo (hstop : inIdentifier stop = false) (hcomma : stop ≠ ',') (l : Members)
    {t : List Char} (ht : ∀ c ∈ withoutComments false (upTo stop t), isBlank c = true) :
    firstWords (withoutComments false (upTo stop (l.text ++ t))) = l.cut stop := by
  induction l with
  | last m comma =>
    rw [text, cut, List.append_assoc]
    cases comma with
    | none =>
      by_cases hm : stop ∈ m.text
      · exact m.firstWords_upTo hstop hm _
      · rw [m.withoutComments_upTo hm]
        exact (firstWords_append ht _).trans (m.firstWords_name (List.prefix_refl _))
    | some sp =>
      refine (firstWords_comma hstop hcomma m sp t).trans ?_
      rw [firstWords_of_blank ht, ite_self]
  | more m comma rest ih =>
    rw [text, cut, List.append_assoc, List.cons_append, List.append_assoc,
      firstWords_comma hstop hcomma, ih]

end Members

end Cut

/-! ## What a statement lists -/

section Listed

variable {s : List Char}

theorem Members.closed (l : Members) : Closed l.text := by
  have hcomma : Closed [','] := closed_of_notMem (by decide)
  induction l with
  | last m comma =>
    refine m.closed.append ?_
    cases comma with
    | none => exact closed_of_notMem List.not_mem_nil
    | some sp => exact hcomma.append sp.closed
  | more m comma rest ih => exact m.closed.append (hcomma.append (comma.closed.append ih))

/-- Without its comments a list has no parentheses. -/
theorem Members.paren_notMem {c : Char} (hc : c ∈ ['(', ')']) (l : Members) :
    c ∉ withoutComments false l.text := by
  have hmark : c ∈ [',', '(', ')', '#'] := by
    rcases List.mem_pair.mp hc with rfl | rfl <;> decide
  have hcomma (s : List Char) (hs : c ∉ withoutComments false s) :
      c ∉ withoutComments false (',' :: s) := by
    have hne : c ≠ ',' := by
      rcases List.mem_pair.mp hc with rfl | rfl <;> decide
    exact List.not_mem_cons_of_ne_of_not_mem hne hs
  induction l with
  | last m comma =>
    rw [text, m.closed, List.mem_append, not_or]
    refine ⟨m.isContent.notMem hmark, ?_⟩
    cases comma with
    | none => exact List.not_mem_nil
    | some sp => exact hcomma _ (sp.isContent.notMem hmark)
  | more m comma rest ih =>
    rw [text, m.closed, List.mem_append, not_or]
    refine ⟨m.isContent.notMem hmark, hcomma _ ?_⟩
    rw [comma.closed, List.mem_append, not_or]
    exact ⟨comma.isContent.notMem hmark, ih⟩

theorem Blanks.paren_notMem {c : Char} (hc : c ∈ ['(', ')']) (b : Blanks) : c ∉ b.text := by
  intro hmem
  have hmargin := b.isMargin c hmem
  rcases List.mem_pair.mp hc with rfl | rfl <;> exact absurd hmargin (by decide)

theorem isBlank_of_isWrapping (hs : ∀ c ∈ ['(', ')'], c ∉ s) :
    ∀ c ∈ s, isWrapping c = true → isBlank c = true := by
  have hcases : ['(', ')', ' ', '\t', '\n'].all fun d => ['(', ')'].contains d || isBlank d := by
    decide
  intro c hmem hc
  have hcase := List.all_eq_true.mp hcases c (List.contains_iff_mem.mp hc)
  rcases Bool.or_eq_true_iff.mp hcase with hparen | hblank
  · exact absurd hmem (hs c (List.contains_iff_mem.mp hparen))
  · exact hblank

theorem withoutComments_sublist (b : Bool) (s : List Char) : (withoutComments b s).Sublist s := by
  induction s generalizing b with
  | nil => exact .slnil
  | cons c r ih =>
    rw [withoutComments]
    split
    · exact (ih false).cons_cons c
    · split
      · exact (ih true).cons c
      · exact (ih false).cons_cons c

theorem Identifier.ne_star (i : Identifier) : i.text ≠ ['*'] := by
  intro heq
  have hstar : '*' ∈ i.text := by
    rw [heq]
    exact List.mem_cons_self
  exact notMem_marks_of_inIdentifier (i.isPart _ hstar) (by decide)

theorem Members.ne_star (l : Members) : ∀ n ∈ l.names, (n != ['*']) = true := by
  induction l with
  | last m comma => exact List.forall_mem_singleton.mpr (bne_iff_ne.mpr m.name.ne_star)
  | more m comma rest ih =>
    exact List.forall_mem_cons.mpr ⟨bne_iff_ne.mpr m.name.ne_star, ih⟩

theorem Members.readUpTo_newline {l : Members} (h : l.OneLine) : l.ReadUpTo '\n' := by
  induction l with
  | last m comma => trivial
  | more m comma rest ih => exact ⟨h.1, h.2.1, ih h.2.2⟩

theorem Members.exists_cons (l : Members) :
    ∃ c r, l.text = c :: r ∧ inIdentifier c = true := by
  have hfirst (m : Member) (s : List Char) :
      ∃ c r, m.text ++ s = c :: r ∧ inIdentifier c = true := by
    obtain ⟨c, r, hm, hc⟩ := m.name.exists_cons
    exact ⟨c, r ++ m.tail ++ s, by rw [Member.text, hm]; rfl, hc⟩
  cases l with
  | last m comma => exact hfirst m _
  | more m comma rest => exact hfirst m _

theorem members_eq (hs : ∀ c ∈ ['(', ')'], c ∉ withoutComments false s) :
    members s = (firstWords (withoutComments false s)).filter (· != ['*']) := by
  have hwords := firstWords_trim (isBlank_of_isWrapping hs)
  rw [← hwords]
  rfl

theorem members_parenthesised (hs : ∀ c ∈ ['(', ')'], c ∉ withoutComments false s) :
    members ('(' :: s ++ [')']) =
      (firstWords (withoutComments false s)).filter (· != ['*']) := by
  obtain ⟨b, happend⟩ := exists_withoutComments_append false s [')']
  have hclose : ∀ c ∈ withoutComments b [')'], isWrapping c = true := by
    intro c hc
    rw [List.mem_singleton.mp ((withoutComments_sublist b [')']).subset hc)]
    rfl
  have hopen : withoutComments false ('(' :: s ++ [')']) =
      '(' :: (withoutComments false s ++ withoutComments b [')']) := by
    rw [← happend]
    rfl
  have hwords := firstWords_trim (isBlank_of_isWrapping hs)
  rw [← hwords, ← trim_append hclose, ← trim_cons (c := '(') rfl, ← hopen]
  rfl

namespace Choice

def listing (ending : LineEnd) : Choice → List Char
  | star => '*' :: ending.text
  | plain members _ => members.text ++ ending.text
  | enclosed opening members => '(' :: upTo ')' (opening.text ++ members.text) ++ [')']

def taken : Choice → List (List Char)
  | star => []
  | plain members _ => members.names
  | enclosed opening members => if ')' ∈ opening.text then [] else members.cut ')'

theorem members_star (ending : LineEnd) : members (listing ending star) = [] := by
  have hstar : withoutComments false (listing ending star) = ['*'] ++ ending.blanks.text := by
    rw [← ending.withoutComments_text]
    rfl
  rw [members_eq, hstar, firstWords_append ending.blanks.isBlank]
  · decide
  · rw [hstar]
    intro c hc
    rw [List.mem_append, not_or]
    refine ⟨?_, ending.blanks.paren_notMem hc⟩
    rcases List.mem_pair.mp hc with rfl | rfl <;> decide

theorem members_plain (ending : LineEnd) {l : Members} (h : l.OneLine) :
    members (l.text ++ ending.text) = l.names := by
  have hblank : ∀ c ∈ withoutComments false (upTo '\n' ending.text), isBlank c = true := by
    rw [upTo_of_notMem ending.newline_notMem, ending.withoutComments_text]
    exact ending.blanks.isBlank
  have hwords := l.firstWords_upTo (by decide) (by decide) hblank
  rw [upTo_append_of_notMem (Members.newline_notMem h), upTo_of_notMem ending.newline_notMem,
    Members.cut_eq_names_iff.mpr (Members.readUpTo_newline h)] at hwords
  rw [members_eq, hwords, List.filter_eq_self.mpr l.ne_star]
  intro c hc
  rw [l.closed, ending.withoutComments_text, List.mem_append, not_or]
  exact ⟨l.paren_notMem hc, ending.blanks.paren_notMem hc⟩

theorem members_enclosed (opening : Space) (l : Members) :
    members ('(' :: upTo ')' (opening.text ++ l.text) ++ [')']) =
      if ')' ∈ opening.text then [] else l.cut ')' := by
  have hcut := withoutComments_isPrefix false (upTo_isPrefix ')' (opening.text ++ l.text))
  have hwords := opening.firstWords_upTo ')' l.text
  have hlist : firstWords (withoutComments false (upTo ')' (l.text ++ []))) = l.cut ')' :=
    l.firstWords_upTo (by decide) (by decide) nofun
  rw [List.append_nil] at hlist
  rw [members_parenthesised, hwords, hlist]
  · split
    · rfl
    · exact List.filter_eq_self.mpr fun n hn => l.ne_star n ((l.cut_isPrefix ')').subset hn)
  · intro c hc hmem
    have hall := hcut.subset hmem
    rw [opening.closed, List.mem_append] at hall
    rcases hall with hspace | hlisted
    · refine opening.isContent.notMem ?_ hspace
      rcases List.mem_pair.mp hc with rfl | rfl <;> decide
    · exact l.paren_notMem hc hlisted

theorem members_listing (ending : LineEnd) (choice : Choice) :
    members (choice.listing ending) = choice.taken := by
  cases choice with
  | star => exact members_star ending
  | plain l oneLine => exact members_plain ending oneLine
  | enclosed opening l => exact members_enclosed opening l

theorem importedNames?_text (gap : Gap) (ending : LineEnd) {rest : List Char}
    (hrest : ∀ c ∈ rest.head?, c = '\n') (choice : Choice) :
    ∃ left, choice.listing ending ++ left = choice.text ++ ending.text ∧
      importedNames? (gap.text ++ (choice.text ++ (ending.text ++ rest))) =
        some (choice.listing ending, left ++ rest) := by
  have hdrop {c : Char} (hc : isMargin c = false) (r : List Char) :
      (c :: r).dropWhile isMargin = c :: r :=
    dropWhile_append_of_head (List.forall_mem_nil _) (forall_head?_cons.mpr hc)
  cases choice with
  | star =>
    refine ⟨[], List.append_nil _, ?_⟩
    refine importedNames?_line gap (hdrop (by decide) _) ⟨_, _, rfl, by decide⟩ ?_ hrest
    exact List.not_mem_cons_of_ne_of_not_mem (by decide) ending.newline_notMem
  | plain l oneLine =>
    obtain ⟨c, r, hl, hc⟩ := l.exists_cons
    have hparen : c ≠ '(' := by
      rintro rfl
      exact notMem_marks_of_inIdentifier hc (by decide)
    have hskip : (l.text ++ (ending.text ++ rest)).dropWhile isMargin =
        listing ending (plain l oneLine) ++ rest := by
      rw [listing, List.append_assoc, hl]
      exact hdrop (isMargin_of_inIdentifier hc) _
    refine ⟨[], List.append_nil _, importedNames?_line gap hskip ?_ ?_ hrest⟩
    · exact ⟨c, r ++ ending.text, by rw [listing, hl]; rfl, hparen⟩
    · rw [listing, List.mem_append, not_or]
      exact ⟨Members.newline_notMem oneLine, ending.newline_notMem⟩
  | enclosed opening l =>
    obtain ⟨left, hsplit, hcut⟩ := exists_cut? ')' (opening.text ++ l.text)
    refine ⟨left ++ ending.text, ?_, ?_⟩
    · have hwhole := congrArg (fun s => '(' :: (s ++ ending.text)) hsplit
      simpa [listing, text, upTo] using hwhole
    · have hread := importedNames?_parenthesised gap (hcut (ending.text ++ rest))
      simpa [listing, text, upTo] using hread

end Choice

end Listed

end ChangeImpact.Imports.Python
