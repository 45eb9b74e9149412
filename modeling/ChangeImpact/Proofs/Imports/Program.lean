import ChangeImpact.Proofs.Imports.Located
import ChangeImpact.Proofs.Imports.Scanning
import Mathlib.Data.List.Chain

/-!
# The imports of a program

A program is made of import statements, written with any blanks between their tokens, and of
other lines in which no keyword of an import is a word. From its text is read the list of the
quoted names of its statements.
-/

namespace ChangeImpact.Imports.EcmaScript

open Text

/-! ## Statements -/

structure Identifier where
  text : List Char
  ne_nil : text ≠ []
  isPart : ∀ c ∈ text, (isWord c || c == '$') = true

inductive Token where
  | word (text : List Char)
  | mark (c : Char)
  | name (q : Quoted)

namespace Token

def spelling : Token → List Char
  | word text => text
  | mark c => [c]
  | name q => q.spelling

def keyword (s : String) : Token := word s.toList

def mayTouch : Token → Token → Bool
  | word _, word _ => false
  | word _, mark c => c != '*' && c != '\x7b'
  | _, _ => true

end Token

structure Listed where
  name : Identifier
  renamed : Option Identifier

def asTokens (name : Identifier) : List Token := [Token.keyword "as", .word name.text]

def Listed.tokens (n : Listed) : List Token := .word n.name.text :: n.renamed.elim [] asTokens

structure Braces where
  names : List Listed
  comma : Bool

def Braces.tokens (b : Braces) : List Token :=
  .mark '\x7b' :: [Token.mark ','].intercalate (b.names.map Listed.tokens) ++
    (if b.comma then [.mark ','] else []) ++ [.mark '\x7d']

inductive Clause where
  | only (default : Identifier)
  | all (default : Option Identifier) (name : Identifier)
  | listed (default : Option Identifier) (names : Braces)

def defaultTokens (default : Option Identifier) : List Token :=
  default.elim [] fun d => [.word d.text, .mark ',']

def Clause.tokens : Clause → List Token
  | only default => [.word default.text]
  | all default name => defaultTokens default ++ .mark '*' :: asTokens name
  | listed default names => defaultTokens default ++ names.tokens

inductive Statement where
  | imported (typed : Bool) (clause : Clause) (name : Quoted)
  | effect (name : Quoted)
  | exported (names : Braces) (name : Quoted)
  | exportedAll (renamed : Option Identifier) (name : Quoted)
  | required (constant : Identifier) (name : Quoted)
  | awaited (constant : Identifier) (name : Quoted)

namespace Statement

def name : Statement → Quoted
  | imported _ _ q => q
  | effect q => q
  | exported _ q => q
  | exportedAll _ q => q
  | required _ q => q
  | awaited _ q => q

def source (q : Quoted) : List Token := [Token.keyword "from", .name q]

def call (keyword : String) (q : Quoted) : List Token :=
  [Token.keyword keyword, .mark '(', .name q, .mark ')']

def tokens : Statement → List Token
  | imported typed clause q =>
    Token.keyword "import" ::
      ((if typed then [Token.keyword "type"] else []) ++ clause.tokens ++ source q)
  | effect q => [Token.keyword "import", .name q]
  | exported names q => Token.keyword "export" :: (names.tokens ++ source q)
  | exportedAll renamed q =>
    Token.keyword "export" :: (.mark '*' :: renamed.elim [] asTokens ++ source q)
  | required v q => [Token.keyword "const", .word v.text, .mark '='] ++ call "require" q
  | awaited v q =>
    [Token.keyword "const", .word v.text, .mark '=', Token.keyword "await"] ++ call "import" q

end Statement

/-! ## Texts -/

structure Spaced where
  token : Token
  blanks : List Char
  isBlank : ∀ c ∈ blanks, Text.isBlank c = true

def Spaced.Apart (a b : Spaced) : Prop := a.blanks = [] → a.token.mayTouch b.token = true

instance (a b : Spaced) : Decidable (a.Apart b) :=
  inferInstanceAs (Decidable (_ → _))

def spell (l : List Spaced) : List Char := l.flatMap fun s => s.token.spelling ++ s.blanks

structure Written (tokens : List Token) where
  spaced : List Spaced
  tokens_eq : spaced.map Spaced.token = tokens
  apart : spaced.IsChain Spaced.Apart

def HasWord (word s : List Char) : Prop :=
  ∃ u v, u ++ word ++ v = s ∧ (∀ c ∈ u.getLast?, isWord c = false) ∧
    ∀ c ∈ v.head?, isWord c = false

structure OtherLine where
  text : List Char
  oneLine : '\n' ∉ text
  noKeyword : ∀ w ∈ ["import", "export", "require"], ¬ HasWord w.toList text

theorem newline_notMem_nil : '\n' ∉ ([] : List Char) := List.not_mem_nil

def OtherLine.empty : OtherLine where
  text := []
  oneLine := newline_notMem_nil
  noKeyword := by
    rintro w hw ⟨u, v, hnil, -⟩
    have hkeywords : ∀ w ∈ ["import", "export", "require"], w.toList ≠ [] := by decide
    obtain ⟨hbegin, -⟩ := List.append_eq_nil_iff.mp hnil
    exact hkeywords w hw (List.append_eq_nil_iff.mp hbegin).2

inductive Item where
  | statement (s : Statement) (written : Written s.tokens)
  | line (l : OtherLine)

def Item.text : Item → List Char
  | statement _ written => spell written.spaced ++ [';', '\n']
  | line l => l.text ++ ['\n']

def Item.names : Item → List (List Char)
  | statement s _ => [s.name.text]
  | line _ => []

structure Program where
  items : List Item
  last : OtherLine

def Program.text (p : Program) : List Char := p.items.flatMap Item.text ++ p.last.text

def Program.names (p : Program) : List (List Char) := p.items.flatMap Item.names

/-! ## Tokens and their texts -/

theorem spell_append (l m : List Spaced) : spell (l ++ m) = spell l ++ spell m :=
  List.flatMap_append

theorem spell_cons (a : Spaced) (l : List Spaced) :
    spell (a :: l) = a.token.spelling ++ (a.blanks ++ spell l) := by
  rw [spell, List.flatMap_cons, List.append_assoc, spell]

theorem spell_nil : spell [] = [] := rfl

def Token.Among (marks : List Char) : Token → Prop
  | word text => ∀ c ∈ text, (isWord c || c == '$') = true
  | mark c => c ∈ marks
  | name _ => False

theorem Token.Among.spelling {marks : List Char} {t : Token} (h : t.Among marks) :
    ∀ c ∈ t.spelling, inClause c = true ∨ c ∈ marks := by
  cases t with
  | word text =>
    intro c hc
    have hpart := h c hc
    rw [Bool.or_eq_true, beq_iff_eq] at hpart
    left
    rcases hpart with hword | rfl
    · exact inClause_of_isWord hword
    · decide
  | mark d =>
    intro c hc
    rw [List.mem_singleton.mp hc]
    exact .inr h
  | name q => exact h.elim

section Spell

variable {marks : List Char} {l : List Spaced}

theorem mem_spell (hl : ∀ t ∈ l.map Spaced.token, t.Among marks) :
    ∀ c ∈ spell l, inClause c = true ∨ c ∈ marks := by
  intro c hc
  obtain ⟨a, ha, hc⟩ := List.mem_flatMap.mp hc
  rcases List.mem_append.mp hc with hc | hc
  · exact (hl _ (List.mem_map_of_mem ha)).spelling c hc
  · exact .inl (inClause_of_isBlank (a.isBlank c hc))

/-- Where a word can follow, the text so far does not end within a word. -/
theorem getLast?_spell (hl : ∀ t ∈ l.map Spaced.token, t.Among marks)
    (hmarks : marks.any isWord = false) {b : Spaced} {word : List Char}
    (hb : b.token = .word word) (hnext : ∀ a ∈ l.getLast?, a.Apart b) :
    ∀ c ∈ (spell l).getLast?, isWord c = false := by
  rcases List.eq_nil_or_concat l with rfl | ⟨m, a, rfl⟩
  · exact nofun
  intro c hc
  rw [List.concat_eq_append] at hl hnext hc
  have ha : a.token.Among marks := hl _ (by simp)
  have hab : a.Apart b := hnext a (by simp)
  rw [spell_append, spell_cons, spell_nil, List.append_nil, ← List.append_assoc] at hc
  by_cases hblanks : a.blanks = []
  · have htouch := hab hblanks
    rw [hb] at htouch
    rw [hblanks, List.append_nil] at hc
    cases htoken : a.token with
    | word text =>
      rw [htoken] at htouch
      exact absurd htouch Bool.false_ne_true
    | mark d =>
      rw [htoken] at ha
      rw [htoken, Token.spelling, List.getLast?_concat] at hc
      rw [← Option.some.inj hc]
      simpa using List.any_eq_false.mp hmarks d ha
    | name q =>
      rw [htoken] at ha
      exact ha.elim
  · rw [List.getLast?_append_of_ne_nil _ hblanks] at hc
    exact isWord_of_isBlank (a.isBlank c (List.mem_of_getLast? hc))

end Spell

def clauseMarks : List Char := ['*', '\x7b', '\x7d', ',']

theorem among_identifier (marks : List Char) (i : Identifier) : (Token.word i.text).Among marks :=
  i.isPart

theorem among_keyword (marks : List Char) {s : String} (h : s.toList.all isWord = true) :
    (Token.keyword s).Among marks := by
  intro c hc
  rw [List.all_eq_true.mp h c hc, Bool.true_or]

theorem among_asTokens (i : Identifier) : ∀ t ∈ asTokens i, t.Among clauseMarks := by
  intro t ht
  rcases List.mem_pair.mp ht with rfl | rfl
  · exact among_keyword _ (by decide)
  · exact among_identifier _ i

theorem among_listed (n : Listed) : ∀ t ∈ n.tokens, t.Among clauseMarks := by
  refine List.forall_mem_cons.mpr ⟨among_identifier _ n.name, ?_⟩
  cases n.renamed with
  | none => exact List.forall_mem_nil _
  | some i => exact among_asTokens i

theorem among_mark {c : Char} (h : c ∈ clauseMarks) :
    ∀ t ∈ [Token.mark c], t.Among clauseMarks := by
  intro t ht
  rw [List.mem_singleton.mp ht]
  exact h

theorem among_intercalate {l : List (List Token)} (h : ∀ x ∈ l, ∀ t ∈ x, t.Among clauseMarks) :
    ∀ t ∈ [Token.mark ','].intercalate l, t.Among clauseMarks := by
  intro t ht
  rcases mem_intercalate ht with hcomma | ⟨x, hx, ht⟩
  · exact among_mark (by decide) t hcomma
  · exact h x hx t ht

theorem among_braces (b : Braces) : ∀ t ∈ b.tokens, t.Among clauseMarks := by
  intro t ht
  rw [Braces.tokens, List.mem_append, List.mem_append, List.mem_cons] at ht
  rcases ht with ((rfl | ht) | ht) | ht
  · exact among_mark (by decide) _ (List.mem_singleton.mpr rfl)
  · refine among_intercalate (fun x hx => ?_) t ht
    obtain ⟨n, -, rfl⟩ := List.mem_map.mp hx
    exact among_listed n
  · split at ht
    · exact among_mark (by decide) t ht
    · exact absurd ht List.not_mem_nil
  · exact among_mark (by decide) t ht

theorem among_default (d : Option Identifier) : ∀ t ∈ defaultTokens d, t.Among clauseMarks := by
  cases d with
  | none => exact List.forall_mem_nil _
  | some i =>
    refine List.forall_mem_cons.mpr ⟨among_identifier _ i, among_mark (by decide)⟩

theorem among_clause (c : Clause) : ∀ t ∈ c.tokens, t.Among clauseMarks := by
  cases c with
  | only i =>
    intro t ht
    rw [List.mem_singleton.mp ht]
    exact among_identifier _ i
  | all d i =>
    refine List.forall_mem_append.mpr ⟨among_default d, ?_⟩
    refine List.forall_mem_cons.mpr ⟨?_, among_asTokens i⟩
    exact among_mark (by decide) _ (List.mem_singleton.mpr rfl)
  | listed d b => exact List.forall_mem_append.mpr ⟨among_default d, among_braces b⟩

/-! ## Statements and programs -/

section Statements

variable {before : Option Char} {q : Quoted} {rest : List Char}

theorem Spaced.closes (a : Spaced) : Closes (a.blanks ++ [';']) :=
  (Closes.of_isBlank a.isBlank).append (closes_singleton (by decide) (by decide))

def Opens (l : List Token) : Prop :=
  ∃ t ∈ l.head?, ∀ word, Token.mayTouch (.word word) t = false

theorem locates_source {w : String} {clause : List Token} (hw : w ∈ Shape.clause.words)
    (hclause : ∀ t ∈ clause, t.Among clauseMarks)
    (hopen : Opens clause)
    (hbefore : atWordStart before = true)
    (written : Written (Token.keyword w :: (clause ++ Statement.source q))) :
    Locates before (spell written.spaced ++ [';', '\n']) rest [(0, q.text)] := by
  -- `k` is the keyword, `m` the clause, `f` the word before the name and `n` the name.
  obtain ⟨spaced, htokens, hapart⟩ := written
  obtain ⟨k, l, rfl, hk, hl⟩ := List.map_eq_cons_iff.mp htokens
  obtain ⟨m, e, rfl, rfl, he⟩ := List.map_eq_append_iff.mp hl
  obtain ⟨f, e, rfl, hf, he⟩ := List.map_eq_cons_iff.mp he
  obtain ⟨n, e, rfl, hn, he⟩ := List.map_eq_cons_iff.mp he
  obtain rfl := List.map_eq_nil_iff.mp he
  obtain ⟨hfirst, hapart⟩ := List.isChain_cons.mp hapart
  obtain ⟨-, -, hlast⟩ := List.isChain_append.mp hapart
  obtain ⟨t, ht, htouch⟩ := hopen
  rw [List.head?_map, Option.mem_def, Option.map_eq_some_iff] at ht
  obtain ⟨a, ha, rfl⟩ := ht
  have hblanks : k.blanks ≠ [] := by
    intro hnil
    have hka := hfirst a (by rw [List.head?_append, ha]; rfl) hnil
    rw [hk, Token.keyword, htouch] at hka
    exact Bool.false_ne_true hka
  have hinside : ∀ c ∈ k.blanks ++ spell m, inClause c = true := by
    have hmarks : ∀ c ∈ clauseMarks, inClause c = true := List.all_eq_true.mp (by decide)
    refine List.forall_mem_append.mpr ⟨fun c hc => inClause_of_isBlank (k.isBlank c hc), ?_⟩
    exact fun c hc => (mem_spell hclause c hc).elim id (hmarks c)
  have hstart : ∀ c ∈ (k.blanks ++ spell m).head?, isBlank c = true := by
    intro c hc
    rw [List.head?_append_of_ne_nil _ hblanks] at hc
    exact k.isBlank c (List.mem_of_head? hc)
  have hend : ∀ c ∈ (k.blanks ++ spell m).getLast?, isWord c = false := by
    intro c hc
    rw [List.getLast?_append, Option.mem_def, Option.or_eq_some_iff] at hc
    rcases hc with hc | ⟨-, hc⟩
    · exact getLast?_spell hclause rfl hf (fun b hb => hlast b hb f rfl) c hc
    · exact isWord_of_isBlank (k.isBlank c (List.mem_of_getLast? hc))
  have hlocates := locates_from q rest hw hbefore hinside (by simp [hblanks])
    hstart hend f.isBlank n.closes
  simpa [spell_cons, spell_append, spell_nil, hk, hf, hn, Token.spelling, Token.keyword]
    using hlocates

theorem locates_import (hbefore : atWordStart before = true)
    (written : Written (Statement.effect q).tokens) :
    Locates before (spell written.spaced ++ [';', '\n']) rest [(0, q.text)] := by
  obtain ⟨spaced, htokens, -⟩ := written
  obtain ⟨k, l, rfl, hk, hl⟩ := List.map_eq_cons_iff.mp htokens
  obtain ⟨n, l, rfl, hn, hl⟩ := List.map_eq_cons_iff.mp hl
  obtain rfl := List.map_eq_nil_iff.mp hl
  have hlocates := locates_effect q rest hbefore k.isBlank n.closes
  simpa [spell_cons, spell_nil, hk, hn, Token.spelling, Token.keyword] using hlocates

theorem locates_argument {k : Shape} (hk : k.IsCall) {w : String} (hw : w.toList = k.signal)
    {front : List Token} (hbefore : atWordStart before = true)
    (hfront : ∀ t ∈ front, t.Among ['='])
    (written : Written (front ++ Statement.call w q)) :
    ∃ place, Locates before (spell written.spaced ++ [';', '\n']) rest [(place, q.text)] := by
  -- Behind `m` come the keyword `f`, the bracket `o`, the name `n` and the bracket `u`.
  obtain ⟨spaced, htokens, hapart⟩ := written
  obtain ⟨m, e, rfl, rfl, he⟩ := List.map_eq_append_iff.mp htokens
  obtain ⟨f, e, rfl, hf, he⟩ := List.map_eq_cons_iff.mp he
  obtain ⟨o, e, rfl, ho, he⟩ := List.map_eq_cons_iff.mp he
  obtain ⟨n, e, rfl, hn, he⟩ := List.map_eq_cons_iff.mp he
  obtain ⟨u, e, rfl, hu, he⟩ := List.map_eq_cons_iff.mp he
  obtain rfl := List.map_eq_nil_iff.mp he
  obtain ⟨-, -, hlast⟩ := List.isChain_append.mp hapart
  have hinside := mem_spell hfront
  have hquote : ∀ c ∈ spell m, isQuote c = false := by
    have hmark : ∀ c ∈ ['='], isQuote c = false := List.forall_mem_singleton.mpr (by decide)
    exact fun c hc => (hinside c hc).elim not_isQuote_of_inClause (hmark c)
  have hparen : '(' ∉ spell m := fun hc => absurd (hinside _ hc) (by decide)
  have hend : ∀ c ∈ (spell m).getLast?.or before, isWord c = false := by
    intro c hc
    rw [Option.mem_def, Option.or_eq_some_iff] at hc
    rcases hc with hc | ⟨-, hc⟩
    · exact getLast?_spell hfront (by decide) hf (fun b hb => hlast b hb f rfl) c hc
    · exact atWordStart_iff.mp hbefore c hc
  refine ⟨(spell m).length, ?_⟩
  have hlocates := locates_call q rest hk hquote hparen hend
    f.isBlank o.isBlank n.isBlank u.closes
  rw [← hw] at hlocates
  simpa [spell_cons, spell_append, spell_nil, hf, ho, hn, hu, Token.spelling, Token.keyword]
    using hlocates

theorem among_constant (v : Identifier) {l : List Token} (h : ∀ t ∈ l, t.Among ['=']) :
    ∀ t ∈ Token.keyword "const" :: .word v.text :: .mark '=' :: l, t.Among ['='] := by
  refine List.forall_mem_cons.mpr ⟨among_keyword _ (by decide), ?_⟩
  refine List.forall_mem_cons.mpr ⟨among_identifier _ v, ?_⟩
  exact List.forall_mem_cons.mpr ⟨List.mem_cons_self, h⟩

theorem opens_clause (c : Clause) : Opens c.tokens := by
  cases c with
  | only i => exact ⟨_, rfl, fun _ => rfl⟩
  | all d i | listed d b => cases d <;> exact ⟨_, rfl, fun _ => rfl⟩

variable (rest) in
theorem Statement.locates (s : Statement) (written : Written s.tokens)
    (hbefore : atWordStart before = true) :
    ∃ place, Locates before (spell written.spaced ++ [';', '\n']) rest
      [(place, s.name.text)] := by
  cases s with
  | imported typed clause q =>
    refine ⟨0, locates_source (w := "import") (by decide) ?_ ?_ hbefore written⟩
    · refine List.forall_mem_append.mpr ⟨?_, among_clause clause⟩
      split
      · exact List.forall_mem_singleton.mpr (among_keyword _ (by decide))
      · exact List.forall_mem_nil _
    · cases typed with
      | true => exact ⟨_, rfl, fun _ => rfl⟩
      | false => exact opens_clause clause
  | effect q => exact ⟨0, locates_import hbefore written⟩
  | exported names q =>
    refine ⟨0, locates_source (w := "export") (by decide) (among_braces names) ?_ hbefore written⟩
    exact ⟨_, rfl, fun _ => rfl⟩
  | exportedAll renamed q =>
    have hwritten : Written (Token.keyword "export" ::
      ((.mark '*' :: renamed.elim [] asTokens) ++ source q)) := written
    refine ⟨0, locates_source (w := "export") (by decide)
      (List.forall_mem_cons.mpr ⟨List.mem_cons_self, ?_⟩) ?_ hbefore written⟩
    · cases renamed with
      | none => exact List.forall_mem_nil _
      | some i => exact among_asTokens i
    · exact ⟨_, rfl, fun _ => rfl⟩
  | required v q =>
    exact locates_argument (.inl rfl) rfl hbefore (among_constant v (List.forall_mem_nil _)) written
  | awaited v q =>
    refine locates_argument (.inr rfl) rfl hbefore (among_constant v ?_) written
    exact List.forall_mem_singleton.mpr (among_keyword _ (by decide))

/-- In a line without the keywords every keyword that begins a word goes on as another word. -/
theorem OtherLine.silent (l : OtherLine) (k : Shape) (hrest : ∀ c ∈ rest.head?, isWord c = false) :
    Silent k.recogniser before l.text rest := by
  refine k.silent (.inr hrest) fun w hw u z hz hstart => ?_
  have hkeyword : w ∈ ["import", "export", "require"] := by
    revert w
    cases k <;> simp [Shape.words]
  have hbegin : ∀ c ∈ u.getLast?, isWord c = false := by
    intro c hc
    refine atWordStart_iff.mp hstart c ?_
    rw [Option.mem_def] at hc ⊢
    rw [hc, Option.some_or]
  have hgoes : ¬ ∀ c ∈ z.head?, isWord c = false := fun hend =>
    l.noKeyword w hkeyword ⟨u, z, by rw [List.append_assoc, hz], hbegin, hend⟩
  cases z with
  | nil => exact (hgoes fun c hc => absurd hc (Option.not_mem_none c)).elim
  | cons c r =>
    refine k.rest?_cons_word ?_ _
    by_contra hc
    refine hgoes fun d hd => ?_
    rw [← Option.some.inj hd]
    simpa using hc

theorem OtherLine.locates (l : OtherLine) (hrest : ∀ c ∈ rest.head?, isWord c = false) :
    Locates before l.text rest [] :=
  Locates.of_silent fun k => l.silent k hrest

variable (rest) in
theorem Item.locates (i : Item) (hbefore : atWordStart before = true) :
    ∃ located, located.map (·.2) = i.names ∧ Locates before i.text rest located := by
  cases i with
  | statement s written =>
    obtain ⟨place, hplace⟩ := s.locates rest written hbefore
    exact ⟨_, rfl, hplace⟩
  | line l =>
    refine ⟨[], rfl, Locates.of_silent fun k => ?_⟩
    refine Silent.append (l.silent k (by simp; decide)) (k.silent_of_no_word _ ?_)
    exact List.forall_mem_singleton.mpr (by decide)

theorem Item.getLast?_text (i : Item) : i.text.getLast? = some '\n' := by
  cases i <;> simp [Item.text]

theorem locates_items (rest : List Char) (before : Option Char) (items : List Item)
    (hbefore : atWordStart before = true) :
    ∃ located, located.map (·.2) = items.flatMap Item.names ∧
      Locates before (items.flatMap Item.text) rest located := by
  induction items generalizing before with
  | nil => exact ⟨[], rfl, Locates.nil⟩
  | cons i r ih =>
    obtain ⟨here, hnames, hhere⟩ := i.locates (r.flatMap Item.text ++ rest) hbefore
    -- Every item ends with a line break, so that the next one begins where a word can begin.
    have hnext : atWordStart (i.text.getLast?.or before) = true := by
      rw [i.getLast?_text, Option.some_or]
      decide
    obtain ⟨later, hnames', hlater⟩ := ih _ hnext
    rw [List.flatMap_cons, List.flatMap_cons]
    refine ⟨_, ?_, hhere.append hlater⟩
    rw [List.map_append, hnames, ← hnames', List.map_map]
    rfl

theorem Program.specifiers_text (p : Program) : specifiers p.text = p.names := by
  obtain ⟨located, hnames, hlocated⟩ := locates_items (p.last.text ++ []) none p.items rfl
  have hall := hlocated.append (p.last.locates nofun)
  rw [Program.text, specifiers_of_locates hall, Program.names, ← hnames]
  simp

/-- The import list of a program is exactly that of its statements, in their order. -/
theorem Program.run_standard (p : Program) :
    Extractors.standard.run (some .ecmascript) (String.ofList p.text) =
      .ok (p.names.map String.ofList) := by
  rw [standard_eq_ok, Imports.specifiers, String.toList_ofList, p.specifiers_text]

end Statements

def severalLines : Program where
  items :=
    let x : Identifier := ⟨['x'], by decide, List.all_eq_true.mp (by decide)⟩
    let y : Identifier := ⟨['y'], by decide, List.all_eq_true.mp (by decide)⟩
    let many : Quoted :=
      ⟨'"', by decide, "./many".toList, by decide, List.all_eq_true.mp (by decide)⟩
    let spaced (t : Token) (blanks : List Char) (h : blanks.all isBlank = true) : Spaced :=
      ⟨t, blanks, List.all_eq_true.mp h⟩
    [.statement (.imported false (.listed none ⟨[⟨x, some y⟩], true⟩) many)
      ⟨[spaced (.keyword "import") [' '] rfl, spaced (.mark '\x7b') ['\n', ' '] rfl,
        spaced (.word x.text) [' '] rfl, spaced (.keyword "as") [' '] rfl,
        spaced (.word y.text) [] rfl, spaced (.mark ',') ['\n'] rfl,
        spaced (.mark '\x7d') [' '] rfl, spaced (.keyword "from") [' '] rfl,
        spaced (.name many) [] rfl], rfl, by decide⟩]
  last := .empty

example : severalLines.text = "import \x7b\n x as y,\n\x7d from \"./many\";\n".toList := by decide

end ChangeImpact.Imports.EcmaScript
