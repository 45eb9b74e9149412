import ChangeImpact.Imports.Python
import ChangeImpact.Proofs.Imports.Scanning
import ChangeImpact.Proofs.Text.Words

/-!
# From statements of Python

`Statement` is a from statement as it is written on one line, with the blanks between its parts
and a comment behind it. It is found where no earlier find has taken its first character, and
where its module is dots alone it refers to every name that it lists, in this order.
-/

namespace ChangeImpact.Imports.Python

open Text

theorem mem_each {found : List (Nat × List (List Char))} {place : Nat} {name : List Char} :
    (place, name) ∈ each found ↔ ∃ names, (place, names) ∈ found ∧ name ∈ names := by
  simp only [each, List.mem_flatMap, List.mem_map, Prod.exists, Prod.mk.injEq]
  constructor
  · intro h
    obtain ⟨_, names, hfound, _, hname, rfl, rfl⟩ := h
    exact ⟨names, hfound, hname⟩
  · intro h
    obtain ⟨names, hfound, hname⟩ := h
    exact ⟨place, names, hfound, name, hname, rfl, rfl⟩

theorem mem_specifiers {s name : List Char} : name ∈ specifiers s ↔
    (∃ find ∈ findAll importStatement s, name ∈ find.2) ∨
      ∃ find ∈ findAll fromStatement s, name ∈ referred find.2.1 find.2.2 := by
  simp only [specifiers, mem_inOrder, List.mem_append, mem_each, exists_or]
  refine or_congr ?_ ?_
  · constructor
    · intro h
      obtain ⟨place, names, hfound, hname⟩ := h
      exact ⟨_, hfound, hname⟩
    · intro h
      obtain ⟨find, hfound, hname⟩ := h
      exact ⟨find.1, find.2, hfound, hname⟩
  · simp only [List.mem_map, Prod.mk.injEq]
    constructor
    · intro h
      obtain ⟨_, _, ⟨find, hfound, rfl, rfl⟩, hname⟩ := h
      exact ⟨find, hfound, hname⟩
    · intro h
      obtain ⟨find, hfound, hname⟩ := h
      exact ⟨_, _, ⟨find, hfound, rfl, rfl⟩, hname⟩

structure IsPlain (name : List Char) : Prop where
  ne_nil : name ≠ []
  ne_star : name ≠ ['*']
  noBlank : ∀ c ∈ name, isBlank c = false
  noMark : ∀ c ∈ name, c ∉ [',', '#', '(', ')']

structure Listed where
  before : List Char
  name : List Char
  behind : List Char
  isPlain : IsPlain name
  isBlank : ∀ c ∈ before ++ behind, isBlank c = true ∧ c ≠ '\n'

namespace Listed

def text (n : Listed) : List Char := n.before ++ (n.name ++ n.behind)

theorem words_text (n : Listed) : words n.text = [n.name] := by
  have hbefore : ∀ c ∈ n.before, Text.isBlank c = true := fun c hc =>
    (n.isBlank c (List.mem_append_left _ hc)).1
  have hbehind : ∀ c ∈ n.behind, Text.isBlank c = true := fun c hc =>
    (n.isBlank c (List.mem_append_right _ hc)).1
  rw [text, words_blank_append hbefore, words_append_blank hbehind,
    words_of_noBlank n.isPlain.ne_nil n.isPlain.noBlank]

theorem of_mem_text {n : Listed} {c : Char} (hc : c ∈ n.text) :
    (Text.isBlank c = true ∧ c ≠ '\n') ∨ (Text.isBlank c = false ∧ c ∉ [',', '#', '(', ')']) := by
  rw [text, List.mem_append, List.mem_append] at hc
  rcases hc with hc | hc | hc
  · exact .inl (n.isBlank c (List.mem_append_left _ hc))
  · exact .inr ⟨n.isPlain.noBlank c hc, n.isPlain.noMark c hc⟩
  · exact .inl (n.isBlank c (List.mem_append_right _ hc))

theorem mark_notMem_text (n : Listed) : ∀ c ∈ [',', '#', '(', ')', '\n'], c ∉ n.text := by
  have hmarks : [',', '#', '(', ')'].all fun c => !Text.isBlank c := by decide
  intro c hmark hc
  rcases of_mem_text hc with ⟨hblank, hline⟩ | ⟨hword, hnone⟩
  · rcases List.mem_append.mp (show c ∈ [',', '#', '(', ')'] ++ ['\n'] from hmark) with h | h
    · exact absurd hblank (by simpa using List.all_eq_true.mp hmarks c h)
    · exact hline (List.mem_singleton.mp h)
  · rcases List.mem_append.mp (show c ∈ [',', '#', '(', ')'] ++ ['\n'] from hmark) with h | h
    · exact hnone h
    · rw [List.mem_singleton.mp h] at hword
      exact absurd hword (by decide)

end Listed

def listing (names : List Listed) : List Char := [','].intercalate (names.map Listed.text)

theorem listing_cons_cons (n m : Listed) (r : List Listed) :
    listing (n :: m :: r) = n.text ++ ',' :: listing (m :: r) := by
  rw [listing, listing, List.map_cons, List.map_cons, List.intercalate_cons_cons,
    List.append_assoc, List.singleton_append]

theorem mark_notMem_listing (names : List Listed) :
    ∀ c ∈ ['#', '(', ')', '\n'], c ∉ listing names := by
  intro c hmark
  have hcomma : c ≠ ',' := ne_of_mem_of_not_mem hmark (by decide)
  have hname : ∀ n : Listed, c ∉ n.text := fun n =>
    n.mark_notMem_text c (List.mem_cons_of_mem _ hmark)
  induction names with
  | nil => simp [listing]
  | cons n r ih =>
    cases r with
    | nil => simpa [listing] using hname n
    | cons m r' =>
      rw [listing_cons_cons, List.mem_append, List.mem_cons, not_or, not_or]
      exact ⟨hname n, hcomma, ih⟩

theorem firstWords_listing {names : List Listed} (hne : names ≠ []) :
    firstWords (listing names) = names.map Listed.name := by
  have hcomma : ∀ f ∈ names.map Listed.text, ',' ∉ f := by
    intro f hf
    obtain ⟨n, -, rfl⟩ := List.mem_map.mp hf
    exact n.mark_notMem_text _ (by decide)
  rw [listing, firstWords_intercalate hcomma (by simpa using hne), List.filterMap_map,
    ← List.filterMap_eq_map]
  refine List.filterMap_congr fun n _ => ?_
  rw [Function.comp_apply, n.words_text]
  rfl

theorem exists_mem_listing {names : List Listed} (hne : names ≠ []) :
    ∃ c ∈ listing names, isMargin c = false := by
  obtain ⟨n, r, rfl⟩ := List.exists_cons_of_ne_nil hne
  obtain ⟨c, t, hn⟩ := List.exists_cons_of_ne_nil n.isPlain.ne_nil
  have hname : c ∈ n.name := hn ▸ List.mem_cons_self
  have htext : c ∈ n.text := List.mem_append_right _ (List.mem_append_left _ hname)
  have hblank := n.isPlain.noBlank c hname
  refine ⟨c, ?_, ?_⟩
  · cases r with
    | nil => simpa [listing] using htext
    | cons m r' =>
      rw [listing_cons_cons]
      exact List.mem_append_left _ htext
  · rw [Bool.eq_false_iff]
    intro hmargin
    rcases isMargin_iff.mp hmargin with rfl | rfl
    · exact absurd hblank (by decide)
    · exact absurd hblank (by decide)

theorem dropWhile_listing_ne_nil {names : List Listed} (hne : names ≠ []) :
    (listing names).dropWhile isMargin ≠ [] := by
  obtain ⟨c, hmem, hword⟩ := exists_mem_listing hne
  rw [ne_eq, List.dropWhile_eq_nil_iff]
  intro hall
  exact Bool.false_ne_true (hword.symm.trans (hall c hmem))

theorem withoutComments_append {s : List Char} (h : '#' ∉ s) (t : List Char) :
    withoutComments false (s ++ t) = s ++ withoutComments false t := by
  induction s with
  | nil => rfl
  | cons c r ih =>
    rw [List.mem_cons, not_or] at h
    have hc : (c == '#') = false := beq_eq_false_iff_ne.mpr (Ne.symm h.1)
    rw [List.cons_append, withoutComments, hc, ih h.2]
    simp

theorem withoutComments_true_append {s : List Char} (h : '\n' ∉ s) (t : List Char) :
    withoutComments true (s ++ t) = withoutComments true t := by
  induction s with
  | nil => rfl
  | cons c r ih =>
    rw [List.mem_cons, not_or] at h
    have hc : (c == '\n') = false := beq_eq_false_iff_ne.mpr (Ne.symm h.1)
    rw [List.cons_append, withoutComments, hc, ih h.2]
    simp

theorem withoutComments_comment {t : List Char} (h : '\n' ∉ t) : withoutComments true t = [] := by
  have hnil := withoutComments_true_append h []
  rwa [List.append_nil] at hnil

section Steps

variable {before : Option Char}

theorem fromStatement_steps (hstart : atLineStart before = true) {margin : List Char}
    (hmargin : ∀ c ∈ margin, isMargin c = true) (toModule : Gap) {module : List Char}
    (hne : module ≠ []) (hmodule : ∀ c ∈ module, (isWord c || c == '.') = true) (toImport : Gap)
    (t : List Char) :
    fromStatement before (margin ++ ("from".toList ++ (toModule.text ++ (module ++
      (toImport.text ++ ("import".toList ++ t)))))) =
      (importedNames? t).map fun (names, rest) =>
        ((module, names), (margin ++ ("from".toList ++ (toModule.text ++ (module ++
          (toImport.text ++ ("import".toList ++ t)))))).length - rest.length) := by
  have hword : ∀ u, ∀ c ∈ ("from".toList ++ u).head?, isMargin c = false := fun u =>
    forall_head?_cons.mpr (by decide)
  have himport : ∀ u, ∀ c ∈ ("import".toList ++ u).head?, isMargin c = false := fun u =>
    forall_head?_cons.mpr (by decide)
  have hbegin : ∀ u, ∀ c ∈ (module ++ u).head?, isMargin c = false := by
    intro u
    obtain ⟨d, r, rfl⟩ := List.exists_cons_of_ne_nil hne
    have hpart := hmodule d List.mem_cons_self
    refine forall_head?_cons.mpr ?_
    rw [Bool.eq_false_iff, ne_eq, isMargin_iff]
    rintro (rfl | rfl) <;> exact absurd hpart (by decide)
  have hgap : ∀ u, ∀ c ∈ (toImport.text ++ u).head?, (isWord c || c == '.') = false := by
    intro u c hc
    obtain ⟨d, hd, hblank⟩ := toImport.head u
    obtain rfl : d = c := Option.some.inj (hd.symm.trans hc)
    rcases isMargin_iff.mp hblank with rfl | rfl <;> decide
  rw [fromStatement, if_pos hstart, skipMargin,
    dropWhile_append_of_head hmargin (hword _), after?_append]
  simp only [Option.bind_eq_bind, Option.bind_some]
  rw [margin?_gap _ (hbegin _)]
  simp only [Option.bind_some]
  rw [dottedName?_append hne hmodule (hgap _)]
  simp only [Option.bind_some]
  rw [margin?_gap _ (himport _)]
  simp only [Option.bind_some]
  rw [after?_append]
  simp only [Option.bind_some]
  cases importedNames? t with
  | none => rfl
  | some found => rfl

variable {s line rest : List Char}

theorem importedNames?_line (gap : Gap) (hs : s.dropWhile isMargin = line ++ rest)
    (hhead : ∃ c r, line = c :: r ∧ c ≠ '(') (hline : '\n' ∉ line)
    (hrest : ∀ c ∈ rest.head?, c = '\n') :
    importedNames? (gap.text ++ s) = some (line, rest) := by
  obtain ⟨c, r, rfl, hparen⟩ := hhead
  have hdrop : (gap.text ++ s).dropWhile isMargin = c :: r ++ rest := by
    rw [List.dropWhile_append_of_pos gap.isMargin, hs]
  have hbefore : ∀ d ∈ c :: r, (d != '\n') = true := fun d hd =>
    bne_iff_ne.mpr (ne_of_mem_of_not_mem hd hline)
  have hbehind : ∀ d ∈ rest.head?, (d != '\n') = false := fun d hd => by
    rw [hrest d hd]
    decide
  have htaken := takeWhile_append_of_head hbefore hbehind
  have hleft := dropWhile_append_of_head hbefore hbehind
  have hsingle : parenthesised? (c :: r ++ rest) = none := by
    rw [List.cons_append]
    unfold parenthesised?
    split
    next heq => exact absurd (List.cons.inj heq).1 hparen
    next => rfl
  have hsome : (c :: r).isEmpty = false := rfl
  simp only [importedNames?, hdrop, gap.takeWhile_isEmpty, htaken, hleft, hsingle, hsome,
    Bool.not_false, if_true, Bool.false_eq_true, if_false]

theorem importedNames?_parenthesised (gap : Gap) (hs : cut? ')' s = some (line, rest)) :
    importedNames? (gap.text ++ '(' :: s) = some ('(' :: line ++ [')'], rest) := by
  have hdrop : (gap.text ++ '(' :: s).dropWhile isMargin = '(' :: s :=
    dropWhile_append_of_head gap.isMargin (forall_head?_cons.mpr (by decide))
  have hfound : parenthesised? ('(' :: s) = some ('(' :: line ++ [')'], rest) := by
    rw [parenthesised?, hs]
    rfl
  simp only [importedNames?, hdrop, gap.takeWhile_isEmpty, hfound, Bool.false_eq_true, if_false]

end Steps

structure Statement where
  margin : List Char
  toModule : Gap
  module : List Char
  toImport : Gap
  toNames : Gap
  names : List Listed
  comment : List Char
  isMargin : ∀ c ∈ margin, isMargin c = true
  module_ne_nil : module ≠ []
  isPart : ∀ c ∈ module, (isWord c || c == '.') = true
  names_ne_nil : names ≠ []
  isComment : ∀ c ∈ comment.head?, c = '#'
  oneLine : '\n' ∉ comment

namespace Statement

def opening (s : Statement) : List Char :=
  s.margin ++ ("from".toList ++ (s.toModule.text ++ (s.module ++
    (s.toImport.text ++ "import".toList))))

def text (s : Statement) : List Char :=
  s.opening ++ (s.toNames.text ++ (listing s.names ++ s.comment))

def line (s : Statement) : List Char := (listing s.names).dropWhile Imports.isMargin ++ s.comment

variable (s : Statement)

theorem fromStatement_opening {before : Option Char} (hstart : atLineStart before = true)
    (t : List Char) : fromStatement before (s.opening ++ t) =
      (importedNames? t).map fun (names, rest) =>
        ((s.module, names), (s.opening ++ t).length - rest.length) := by
  have hsteps : s.opening ++ t = s.margin ++ ("from".toList ++ (s.toModule.text ++
      (s.module ++ (s.toImport.text ++ ("import".toList ++ t))))) := by
    simp only [opening, List.append_assoc]
  rw [hsteps]
  exact fromStatement_steps hstart s.isMargin s.toModule s.module_ne_nil s.isPart s.toImport t

theorem exists_head_line : ∃ c r, s.line = c :: r ∧ Imports.isMargin c = false ∧ c ≠ '(' := by
  obtain ⟨d, r, hd⟩ := List.exists_cons_of_ne_nil (dropWhile_listing_ne_nil s.names_ne_nil)
  have hhead := List.head?_dropWhile_not Imports.isMargin (listing s.names)
  have hlisted : d ∈ listing s.names :=
    (List.dropWhile_suffix _).subset (hd ▸ List.mem_cons_self)
  rw [hd] at hhead
  refine ⟨d, r ++ s.comment, ?_, by simpa using hhead, ?_⟩
  · rw [line, hd, List.cons_append]
  · intro heq
    exact mark_notMem_listing s.names '(' (by decide) (heq ▸ hlisted)

theorem newline_notMem_line : '\n' ∉ s.line := by
  rw [line, List.mem_append, not_or]
  refine ⟨fun h => ?_, s.oneLine⟩
  exact mark_notMem_listing s.names '\n' (by decide) ((List.dropWhile_suffix _).subset h)

theorem importedNames?_listing {rest : List Char} (hrest : ∀ c ∈ rest.head?, c = '\n') :
    importedNames? (s.toNames.text ++ (listing s.names ++ (s.comment ++ rest))) =
      some (s.line, rest) := by
  obtain ⟨c, r, hline, -, hparen⟩ := s.exists_head_line
  -- Blanks in front of the first name are taken for a part of the gap before it.
  have hdrop : (listing s.names ++ (s.comment ++ rest)).dropWhile Imports.isMargin =
      s.line ++ rest := by
    rw [List.dropWhile_append, if_neg (by simpa using dropWhile_listing_ne_nil s.names_ne_nil),
      line, List.append_assoc]
  exact importedNames?_line s.toNames hdrop ⟨c, r, hline, hparen⟩ s.newline_notMem_line hrest

theorem fromStatement_text {before : Option Char} (hstart : atLineStart before = true)
    {rest : List Char} (hrest : ∀ c ∈ rest.head?, c = '\n') :
    fromStatement before (s.text ++ rest) = some ((s.module, s.line), s.text.length) := by
  have htext : s.text ++ rest =
      s.opening ++ (s.toNames.text ++ (listing s.names ++ (s.comment ++ rest))) := by
    simp only [text, List.append_assoc]
  have hlength : (s.text ++ rest).length - rest.length = s.text.length := by
    rw [List.length_append, Nat.add_sub_cancel]
  rw [← hlength, htext, fromStatement_opening s hstart, importedNames?_listing s hrest]
  rfl

theorem members_line : members s.line = s.names.map Listed.name := by
  have hlisted : ∀ c ∈ (listing s.names).dropWhile Imports.isMargin, c ∈ listing s.names :=
    fun c hc => (List.dropWhile_suffix _).subset hc
  have hhash : '#' ∉ (listing s.names).dropWhile Imports.isMargin := fun h =>
    mark_notMem_listing s.names '#' (by decide) (hlisted _ h)
  have hcomment : withoutComments false s.comment = [] := by
    cases hc : s.comment with
    | nil => rfl
    | cons c r =>
      have hline := s.oneLine
      obtain rfl := s.isComment c (by rw [hc]; rfl)
      rw [hc, List.mem_cons, not_or] at hline
      rw [withoutComments, withoutComments_comment hline.2]
      rfl
  have hmargin : ∀ c ∈ listing s.names, Imports.isMargin c = true → isBlank c = true := by
    intro c _ hc
    rcases isMargin_iff.mp hc with rfl | rfl <;> decide
  have hwrapping : ∀ c ∈ (listing s.names).dropWhile Imports.isMargin,
      isWrapping c = true → isBlank c = true := by
    intro c hmem hc
    have hcases : ['(', ')', ' ', '\t', '\n'].all fun d =>
        ['#', '(', ')', '\n'].contains d || isBlank d := by decide
    have hcase := List.all_eq_true.mp hcases c (List.contains_iff_mem.mp hc)
    rcases Bool.or_eq_true_iff.mp hcase with hmark | hblank
    · have hnone := mark_notMem_listing s.names c (List.contains_iff_mem.mp hmark)
      exact absurd (hlisted c hmem) hnone
    · exact hblank
  have hnames : ∀ n ∈ s.names.map Listed.name, (n != ['*']) = true := by
    intro n hn
    obtain ⟨m, -, rfl⟩ := List.mem_map.mp hn
    exact bne_iff_ne.mpr m.isPlain.ne_star
  have hmembers : members s.line =
      (firstWords (trim isWrapping (withoutComments false s.line))).filter (· != ['*']) := rfl
  rw [hmembers, line, withoutComments_append hhash, hcomment, List.append_nil,
    firstWords_trim hwrapping, firstWords_dropWhile hmargin, firstWords_listing s.names_ne_nil,
    List.filter_eq_self.mpr hnames]

theorem referred_line (hdots : ∀ c ∈ s.module, c = '.') :
    referred s.module s.line = s.names.map fun n => s.module ++ n.name := by
  have hnone : (s.module.any (· != '.')) = false := by
    simpa using hdots
  have hsome : (members s.line).isEmpty = false := by
    rw [members_line]
    simpa using s.names_ne_nil
  rw [referred, hnone, hsome, if_neg (by decide), members_line, List.map_map]
  rfl

/-- No earlier find takes the first character of the statement. -/
def Stands (above below : List Char) : Prop :=
  reach fromStatement (s.text ++ below) 0 none above = 0

instance (above below : List Char) : Decidable (s.Stands above below) :=
  inferInstanceAs (Decidable (_ = _))

theorem name_mem_specifiers {above below : List Char} (hdots : ∀ c ∈ s.module, c = '.')
    (hstart : atLineStart above.getLast? = true) (hend : ∀ c ∈ below.head?, c = '\n')
    (hstands : s.Stands above below) {n : Listed} (hn : n ∈ s.names) :
    s.module ++ n.name ∈ specifiers (above ++ (s.text ++ below)) := by
  have hne : s.text ++ below ≠ [] := by
    simp [text, opening]
  have hfound := mem_findAll hne hstands (fromStatement_text s hstart hend)
  refine mem_specifiers.mpr (.inr ⟨_, hfound, ?_⟩)
  rw [referred_line s hdots]
  exact List.mem_map_of_mem hn

end Statement

end ChangeImpact.Imports.Python
