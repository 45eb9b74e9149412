import ChangeImpact.Imports.Extractor
import ChangeImpact.Proofs.Imports.Python.Members
import ChangeImpact.Proofs.Imports.Python.Modules
import ChangeImpact.Proofs.Imports.Python.Ordered

/-!
# The imports of a program in Python

The import list of a program is that of its statements, in their order, just where every statement
is read as it is written.
-/

namespace ChangeImpact.Imports.Python

open Text

section From

variable {before : Option Char} {s rest : List Char}

theorem fromStatement_illegible (hstart : atLineStart before = true) (margin : Blanks)
    (gap : Gap) (o : Origin) (h : ¬ IsLegible o.text) (s : List Char) :
    fromStatement before (margin.text ++ (Keyword.from_.word ++ (gap.text ++ (o.text ++ s)))) =
      none := by
  obtain ⟨c, r, ho, hmargin⟩ := o.exists_cons
  obtain ⟨w, d, v, hsplit, hw, hd⟩ := exists_first_not h
  have hidentifier : inIdentifier d = true := by
    refine (o.inIdentifier_or_dot d (hsplit ▸ by simp)).resolve_right ?_
    rintro rfl
    exact absurd hd (by decide)
  have hword : skipMargin (margin.text ++ (Keyword.from_.word ++ (gap.text ++ (o.text ++ s)))) =
      "from".toList ++ (gap.text ++ (o.text ++ s)) := by
    rw [skipMargin_blanks]
    exact skipMargin_of_head (forall_head?_cons.mpr (by decide))
  have hhead : ∀ e ∈ (o.text ++ s).head?, isMargin e = false := by
    rw [ho]
    exact forall_head?_cons.mpr hmargin
  have hbehind : margin? (d :: (v ++ s)) = none :=
    margin?_of_head (forall_head?_cons.mpr (isMargin_of_inIdentifier hidentifier))
  rw [fromStatement, if_pos hstart, hword]
  simp only [Option.bind_eq_bind, after?_append, Option.bind_some, margin?_gap gap hhead]
  rw [hsplit, List.append_assoc, List.cons_append, dottedName?_append_cons hw hd]
  split
  · rfl
  · rw [Option.bind_some, hbehind, Option.bind_none]

theorem FromLine.fromStatement_text (l : FromLine) (h : IsLegible l.origin.text)
    (hstart : atLineStart before = true) (hrest : ∀ c ∈ rest.head?, c = '\n') :
    ∃ used left, used ++ left = l.text ∧ used ≠ [] ∧ fromStatement before (l.text ++ rest) =
      some ((l.origin.text, l.choice.listing l.ending), used.length) := by
  obtain ⟨c, r, horigin, -⟩ := l.origin.exists_cons
  have hne : l.origin.text ≠ [] := by
    rw [horigin]
    exact List.cons_ne_nil c r
  obtain ⟨left, hsplit, hnames⟩ := l.choice.importedNames?_text l.toNames l.ending hrest
  have hread := fromStatement_steps hstart l.margin.isMargin l.toModule hne h l.toImport
    (l.toNames.text ++ (l.choice.text ++ (l.ending.text ++ rest)))
  have htext : l.text ++ rest = l.margin.text ++ ("from".toList ++ (l.toModule.text ++
      (l.origin.text ++ (l.toImport.text ++ ("import".toList ++
        (l.toNames.text ++ (l.choice.text ++ (l.ending.text ++ rest)))))))) := by
    simp only [text, Keyword.word_import, Keyword.word_from, List.append_assoc]
  have hused : l.margin.text ++ ("from".toList ++ (l.toModule.text ++ (l.origin.text ++
      (l.toImport.text ++ ("import".toList ++
        (l.toNames.text ++ l.choice.listing l.ending)))))) ++ left = l.text := by
    simp only [text, Keyword.word_import, Keyword.word_from, List.append_assoc, ← hsplit]
  refine ⟨_, left, hused, by simp, ?_⟩
  have hlength := congrArg List.length hused
  rw [htext, hread, hnames, Option.map_some, ← htext]
  simp only [List.length_append] at hlength ⊢
  rw [Option.some.injEq, Prod.mk.injEq, and_iff_right rfl]
  omega

theorem referred_named (up : Nat) (path : Dotted) (names : List Char) :
    referred (Origin.named up path).text names = [(Origin.named up path).text] := by
  obtain ⟨c, r, hpath, hc⟩ := path.exists_cons
  have hdot : c ≠ '.' := by
    rintro rfl
    exact notMem_marks_of_inIdentifier hc (by decide)
  have hany : ((Origin.named up path).text.any (· != '.')) = true := by
    rw [Origin.text, hpath, List.any_append, List.any_cons, bne_iff_ne.mpr hdot, Bool.true_or,
      Bool.or_true]
  rw [referred, hany, Bool.true_or, if_pos rfl]

/-- The modules that names stand for beside dots; without names, the dots stand for themselves. -/
def beside (dots : List Char) (names : List (List Char)) : List (List Char) :=
  if names.isEmpty then [dots] else names.map (dots ++ ·)

theorem referred_dots (more : Nat) (choice : Choice) (ending : LineEnd) :
    referred (Origin.dots more).text (choice.listing ending) =
      beside (Origin.dots more).text choice.taken := by
  have hany : ((Origin.dots more).text.any (· != '.')) = false := by
    rw [List.any_eq_false]
    intro c hc
    simp [List.eq_of_mem_replicate hc]
  rw [referred, hany, Bool.false_or, choice.members_listing, beside]

section Beside

variable {dots : List Char} {names taken : List (List Char)}

theorem beside_of_ne_nil (h : names ≠ []) : beside dots names = names.map (dots ++ ·) :=
  if_neg (by simpa using h)

theorem length_beside_le (h : taken <+: names) :
    (beside dots taken).length ≤ (beside dots names).length := by
  by_cases htaken : taken = []
  · have hpos : 0 < (beside dots names).length := by
      rw [beside]
      split
      · exact Nat.one_pos
      next hnames => simpa using List.length_pos_of_ne_nil (by simpa using hnames)
    rw [htaken]
    exact hpos
  · have hnames : names ≠ [] := fun hnil => htaken (List.prefix_nil.mp (hnil ▸ h))
    rw [beside_of_ne_nil htaken, beside_of_ne_nil hnames, List.length_map, List.length_map]
    exact h.length_le

theorem beside_eq_iff (h : taken <+: names) (hne : [] ∉ names) :
    beside dots taken = beside dots names ↔ taken = names := by
  refine ⟨fun heq => ?_, fun heq => by rw [heq]⟩
  by_cases hnames : names = []
  · rw [hnames] at h ⊢
    exact List.prefix_nil.mp h
  rw [beside_of_ne_nil hnames] at heq
  by_cases htaken : taken = []
  · -- The dots themselves are no module beside them.
    obtain ⟨n, r, rfl⟩ := List.exists_cons_of_ne_nil hnames
    rw [htaken, List.map_cons] at heq
    have hn : n = [] := by simpa using (List.cons.inj heq).1
    exact absurd (hn ▸ List.mem_cons_self) hne
  · rw [beside_of_ne_nil htaken] at heq
    exact List.map_injective_iff.mpr (List.append_right_injective dots) heq

end Beside

theorem Members.nil_notMem (l : Members) : [] ∉ l.names := by
  induction l with
  | last m comma => exact List.mem_singleton.not.mpr m.name.ne_nil.symm
  | more m comma rest ih => exact List.not_mem_cons_of_ne_of_not_mem m.name.ne_nil.symm ih

namespace Choice

theorem nil_notMem (choice : Choice) : [] ∉ choice.names := by
  cases choice with
  | star => exact List.not_mem_nil
  | plain l oneLine => exact l.nil_notMem
  | enclosed opening l => exact l.nil_notMem

theorem taken_isPrefix (choice : Choice) : choice.taken <+: choice.names := by
  cases choice with
  | star => exact List.prefix_refl _
  | plain l oneLine => exact List.prefix_refl _
  | enclosed opening l =>
    rw [taken, names]
    split
    · exact List.nil_prefix
    · exact l.cut_isPrefix ')'

theorem taken_eq_names_iff (choice : Choice) : choice.taken = choice.names ↔ choice.IsRead := by
  cases choice with
  | star => exact iff_of_true rfl trivial
  | plain l oneLine => exact iff_of_true rfl trivial
  | enclosed opening l =>
    rw [taken, names, IsRead]
    split
    next h => exact iff_of_false l.names_ne_nil.symm fun hread => hread.1 h
    next h => rw [Members.cut_eq_names_iff, and_iff_right h]

end Choice

namespace FromLine

theorem names_dots {l : FromLine} {more : Nat} (h : l.origin = .dots more) :
    l.names = beside l.origin.text l.choice.names := by
  rw [names, h]
  cases l.choice with
  | star => rfl
  | plain members oneLine => exact (beside_of_ne_nil members.names_ne_nil).symm
  | enclosed opening members => exact (beside_of_ne_nil members.names_ne_nil).symm

theorem names_ne_nil (l : FromLine) : l.names ≠ [] := by
  cases h : l.origin with
  | dots more =>
    rw [names_dots h, beside]
    split
    · exact List.cons_ne_nil _ _
    next hnames => simpa using hnames
  | named up path =>
    rw [names, h]
    exact List.cons_ne_nil _ _

def read (l : FromLine) : List (List Char) := referred l.origin.text (l.choice.listing l.ending)

theorem read_dots {l : FromLine} {more : Nat} (h : l.origin = .dots more) :
    l.read = beside l.origin.text l.choice.taken := by
  rw [read, h, referred_dots]

theorem read_named {l : FromLine} {up : Nat} {path : Dotted} (h : l.origin = .named up path) :
    l.read = l.names := by
  rw [read, names, h, referred_named]

theorem length_read_le (l : FromLine) : l.read.length ≤ l.names.length := by
  cases h : l.origin with
  | dots more =>
    rw [read_dots h, names_dots h]
    exact length_beside_le l.choice.taken_isPrefix
  | named up path => rw [read_named h]

theorem read_eq_names_iff (l : FromLine) (h : IsLegible l.origin.text) :
    l.read = l.names ↔ l.IsRead := by
  cases ho : l.origin with
  | dots more =>
    rw [read_dots ho, names_dots ho, beside_eq_iff l.choice.taken_isPrefix l.choice.nil_notMem,
      l.choice.taken_eq_names_iff, IsRead, ho]
  | named up path =>
    rw [ho] at h
    rw [read_named ho, IsRead, ho]
    exact iff_of_true rfl h

theorem isLegible_of_isRead {l : FromLine} (h : l.IsRead) : IsLegible l.origin.text := by
  cases ho : l.origin with
  | dots more =>
    intro c hc
    rw [List.eq_of_mem_replicate hc]
    decide
  | named up path =>
    rw [IsRead, ho] at h
    exact h

theorem readsAs (l : FromLine) (hstart : atLineStart before = true)
    (hrest : ∀ c ∈ rest.head?, c = '\n') :
    ReadsAs .from_ before l.text rest l.names l.IsRead := by
  by_cases h : IsLegible l.origin.text
  · obtain ⟨used, left, hsplit, hne, hread⟩ := l.fromStatement_text h hstart hrest
    refine .inr ⟨l.read, used, left, hsplit, hne, ?_, l.length_read_le, l.read_eq_names_iff h⟩
    simp only [Keyword.recogniser, hread, Option.map_some, read]
  · have hnone := fromStatement_illegible hstart l.margin l.toModule l.origin h
      (l.toImport.text ++ (Keyword.import_.word ++
        (l.toNames.text ++ (l.choice.text ++ (l.ending.text ++ rest)))))
    refine .inl ⟨?_, fun hread => h (isLegible_of_isRead hread)⟩
    simp only [Keyword.recogniser, text, List.append_assoc, hnone, Option.map_none]

end FromLine

end From

/-! ## Items and programs -/

section Items

variable {before : Option Char} {rest : List Char}

theorem not_opens_other {j k : Keyword} (h : j ≠ k) (margin : Blanks) (s : List Char) :
    ¬ Opens j (margin.text ++ (k.word ++ s)) := by
  rw [opens_blanks]
  rintro ⟨c, r, heq, -⟩
  obtain ⟨d, t, hk, hd⟩ := k.exists_cons
  rw [skipMargin_of_head (by rw [hk]; exact forall_head?_cons.mpr (isMargin_of_inIdentifier hd))]
    at heq
  cases j <;> cases k
  · exact h rfl
  · exact absurd (List.cons.inj heq).1 (by decide)
  · exact absurd (List.cons.inj heq).1 (by decide)
  · exact h rfl

theorem Item.gives (i : Item) (hstart : atLineStart before = true)
    (hrest : ∀ c ∈ rest.head?, c = '\n') : Gives before i.text rest i.names i.IsRead := by
  cases i with
  | imports l =>
    refine (l.readsAs hstart hrest).gives l.modules.names_ne_nil
      (quiet_of_newline_notMem l.newline_notMem) hrest fun j hj => ?_
    exact not_opens_other hj l.margin _
  | from_ l =>
    refine (l.readsAs hstart hrest).gives l.names_ne_nil l.quiet hrest fun j hj => ?_
    exact not_opens_other hj l.margin _
  | other l =>
    refine .of_silent fun k => ?_
    have hopens : ¬ Opens k (l.text ++ rest) := fun hopens =>
      l.noKeyword k (hopens.of_append hrest).beginsWith
    exact (quiet_of_newline_notMem l.oneLine).silent hrest (recogniser_of_not_opens hopens)

theorem gives_newline : Gives before ['\n'] rest [] True := by
  refine .of_silent fun k u v huv hv => ?_
  cases u with
  | nil =>
    rw [List.nil_append] at huv
    rw [huv]
    exact recogniser_of_not_opens (not_opens_newline (forall_head?_cons.mpr rfl))
  | cons c u => exact absurd (List.append_eq_nil_iff.mp (List.cons.inj huv).2).2 hv

theorem joins_gives : Joins Gives where
  nil _ _ := .of_silent fun _ => silent_nil
  newline _ _ := gives_newline
  append := Gives.append

/-- The keywords are scanned one by one, and the names of their finds are put in order. -/
theorem specifiers_eq (s : List Char) : specifiers s =
    inOrder (each (Keyword.all.flatMap fun k => findAll k.recogniser s)) := by
  have hfrom := findAll_map (fun x : List Char × List Char => referred x.1 x.2) fromStatement s
  have hall : (Keyword.all.flatMap fun k => findAll k.recogniser s) =
      findAll importStatement s ++ findAll Keyword.from_.recogniser s := by
    rw [Keyword.all, List.flatMap_cons, List.flatMap_singleton]
    rfl
  rw [hall, each_append]
  exact congrArg (fun found => inOrder (each (findAll importStatement s) ++ each found)) hfrom.symm

theorem Program.specifiers_text (p : Program) :
    specifiers p.text = p.names ↔ ∀ i ∈ p.items, i.IsRead := by
  obtain ⟨located, hfound, -, hiff⟩ := joins_gives.items (fun i _ _ => i.gives) p.items
    (rfl : atLineStart none = true)
  obtain ⟨hperm, hplaces⟩ := hfound.perm
  rw [specifiers_eq, Program.text, inOrder_each hperm hplaces]
  exact hiff

end Items

/-- The import list of the program is that of its statements, in their order. -/
def Program.IsExact (p : Program) : Prop :=
  Extractors.standard.run (some .python) (String.ofList p.text) =
    .ok (p.names.map String.ofList)

theorem run_python (s : List Char) : Extractors.standard.run (some .python) (String.ofList s) =
    .ok ((specifiers s).map String.ofList) := by
  rw [standard_eq_ok, Imports.specifiers, String.toList_ofList]

theorem Program.isExact_iff_specifiers (p : Program) : p.IsExact ↔ specifiers p.text = p.names := by
  rw [IsExact, run_python, Except.ok.injEq]
  exact (List.map_injective_iff.mpr fun _ _ => String.ofList_injective).eq_iff

/-- The import list is exact just where every statement is read as it is written. -/
theorem Program.isExact_iff (p : Program) : p.IsExact ↔ ∀ i ∈ p.items, i.IsRead :=
  p.isExact_iff_specifiers.trans p.specifiers_text

def Blanks.ofString (s : String) (h : s.toList.all Imports.isMargin = true) : Blanks :=
  ⟨s.toList, List.all_eq_true.mp h⟩

def gap (s : String) (h : s.toList.all isMargin = true) (hne : s.toList ≠ []) : Gap :=
  ⟨s.toList, List.all_eq_true.mp h, hne⟩

def Blanks.empty : Blanks := .ofString "" rfl

def oneBlank : Gap := gap " " rfl (by decide)

def LineEnd.empty : LineEnd := ⟨.empty, none⟩

def OtherLine.empty : OtherLine where
  text := "".toList
  oneLine := by decide
  noKeyword k := by
    rintro ⟨r, hr, -⟩
    obtain ⟨c, t, hk, -⟩ := k.exists_cons
    rw [hk] at hr
    exact List.cons_ne_nil _ _ hr.symm

def letter (c : Char) (h : isWord c = true) : Identifier where
  text := [c]
  ne_nil := List.cons_ne_nil _ _
  isPart := List.forall_mem_singleton.mpr (inIdentifier_of_isWord h)
  noKeyword k heq := by
    have hlength : k.word.length ≠ 1 := by cases k <;> decide
    exact hlength (congrArg List.length heq.symm)

def commented : Program where
  items :=
    let member (c : Char) (h : isWord c = true) : Member :=
      ⟨letter c h, ⟨[], Blanks.empty⟩, none, nofun⟩
    let indent := Blanks.ofString "    " rfl
    let behind := Blanks.ofString "  " rfl
    let comment : Comment := ⟨" one)".toList, by decide⟩
    [.from_ {
      margin := Blanks.empty
      toModule := oneBlank
      origin := .dots 0
      toImport := oneBlank
      toNames := oneBlank
      choice := .enclosed ⟨[LineEnd.empty], indent⟩
        (.more (member 'a' rfl) ⟨[⟨behind, some comment⟩], indent⟩
          (.last (member 'b' rfl) (some ⟨[LineEnd.empty], Blanks.empty⟩)))
      ending := LineEnd.empty },
    .other OtherLine.empty]

def signed : Program where
  items :=
    let name : Identifier := {
      text := "की".toList
      ne_nil := by decide
      isPart := by
        have hbeyond : "की".toList.all fun c => 128 ≤ c.toNat && !isBlank c := by decide
        exact fun c hc => Bool.or_eq_true_iff.mpr (.inr (List.all_eq_true.mp hbeyond c hc))
      noKeyword := fun k => by cases k <;> decide }
    [.imports ⟨Blanks.empty, oneBlank, .last ⟨⟨name, []⟩, none⟩, LineEnd.empty⟩]

example : commented.text = "from . import (\n    a,  # one)\n    b,\n)\n".toList := by decide

theorem not_isExact_commented : ¬ commented.IsExact ∧ ¬ signed.IsExact := by
  constructor
  · intro h
    have hread := commented.specifiers_text.mp (commented.isExact_iff_specifiers.mp h) _
      List.mem_cons_self
    exact absurd hread.2.2.1 (by decide)
  · intro h
    have hread := signed.specifiers_text.mp (signed.isExact_iff_specifiers.mp h) _
      List.mem_cons_self
    have hsign : (isWord 'ी' || 'ी' == '.') = false := by decide +kernel
    have hlegible := hread 'ी' (by decide)
    rw [hsign] at hlegible
    exact Bool.false_ne_true hlegible

end ChangeImpact.Imports.Python
