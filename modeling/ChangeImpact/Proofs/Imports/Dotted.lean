import ChangeImpact.Proofs.Data.Spans
import ChangeImpact.Proofs.Imports.Candidates
import ChangeImpact.Proofs.Path.Climbing

/-!
# Dotted specifiers

A dotted specifier climbs up one folder for each dot but the first and goes down to its names.
Among files of one language it then means a module, an index file or the initialiser of a package,
in this order, and nothing where it climbs out of the repository. The exceptions are a folder that
is itself known as a file, which comes first, and a file in the root that is named like a parent
mark with an ending.
-/

namespace ChangeImpact.Imports.Resolver

open ChangeImpact.Path

def IsName (name : String) : Prop := name ≠ "" ∧ ∀ c ∈ name.toList, Text.isWord c = true

section Names

theorem isWord_ne {c : Char} (h : Text.isWord c = true) :
    c ≠ '/' ∧ c ≠ '.' ∧ c ≠ '?' ∧ c ≠ '\n' := by
  have hmarks : Text.isWord '/' = false ∧ Text.isWord '.' = false ∧ Text.isWord '?' = false ∧
      Text.isWord '\n' = false := by decide
  obtain ⟨hslash, hdot, hquery, hbreak⟩ := hmarks
  refine ⟨?_, ?_, ?_, ?_⟩ <;> intro heq <;> rw [heq] at h
  exacts [Bool.false_ne_true (hslash.symm.trans h), Bool.false_ne_true (hdot.symm.trans h),
    Bool.false_ne_true (hquery.symm.trans h), Bool.false_ne_true (hbreak.symm.trans h)]

theorem IsName.isPart {name : String} (h : IsName name) : IsPart name ∧ name ≠ ".." := by
  have hdot : '.' ∉ name.toList := fun hmem => (isWord_ne (h.2 _ hmem)).2.1 rfl
  refine ⟨⟨h.1, ?_, fun hmem => (isWord_ne (h.2 _ hmem)).1 rfl⟩, ?_⟩
  · intro heq
    rw [heq] at hdot
    exact hdot (by decide)
  · intro heq
    rw [heq] at hdot
    exact hdot (by decide)

def joined (mark : Char) (names : List String) : List Char :=
  [mark].intercalate (names.map String.toList)

theorem joined_cons_cons (mark : Char) (a b : String) (r : List String) :
    joined mark (a :: b :: r) = a.toList ++ mark :: joined mark (b :: r) := by
  simp [joined, List.intercalate_cons_cons]

theorem mem_joined {mark : Char} {names : List String} (h : ∀ n ∈ names, IsName n) :
    ∀ c ∈ joined mark names, Text.isWord c = true ∨ c = mark := by
  induction names with
  | nil => exact List.forall_mem_nil _
  | cons a r ih =>
    obtain ⟨ha, hr⟩ := List.forall_mem_cons.mp h
    cases r with
    | nil =>
      have hone : joined mark [a] = a.toList := by simp [joined]
      rw [hone]
      exact fun c hc => .inl (ha.2 c hc)
    | cons b r =>
      rw [joined_cons_cons, List.forall_mem_append, List.forall_mem_cons]
      exact ⟨fun c hc => .inl (ha.2 c hc), .inr rfl, ih hr⟩

theorem joined_map {names : List String} (h : ∀ n ∈ names, IsName n) :
    (joined '.' names).map (fun c => if c == '.' then '/' else c) = joined '/' names := by
  have hkeep : ∀ n, IsName n →
      n.toList.map (fun c => if c == '.' then '/' else c) = n.toList := by
    intro n hn
    refine (List.map_congr_left fun c hc => ?_).trans (List.map_id _)
    have hne := (isWord_ne (hn.2 c hc)).2.1
    simp [hne]
  induction names with
  | nil => rfl
  | cons a r ih =>
    obtain ⟨ha, hr⟩ := List.forall_mem_cons.mp h
    cases r with
    | nil => simpa [joined] using hkeep a ha
    | cons b r =>
      rw [joined_cons_cons, joined_cons_cons, List.map_append, List.map_cons, ih hr, hkeep a ha]
      rfl

theorem head_joined {mark : Char} {names : List String} (h : ∀ n ∈ names, IsName n) :
    ∀ c, (joined mark names).head? = some c → Text.isWord c = true := by
  intro c hc
  cases names with
  | nil => cases hc
  | cons a r =>
    obtain ⟨⟨hne, hword⟩, -⟩ := List.forall_mem_cons.mp h
    obtain ⟨d, t, hd⟩ := List.exists_cons_of_ne_nil fun hn => hne (String.toList_eq_nil_iff.mp hn)
    have hhead : (joined mark (a :: r)).head? = some d := by
      cases r with
      | nil => simp [joined, hd]
      | cons b r => simp [joined_cons_cons, hd]
    obtain rfl := Option.some.inj (hhead.symm.trans hc)
    exact hword d (hd ▸ List.mem_cons_self)

theorem parts_joined {names : List String} (h : ∀ n ∈ names, IsName n) :
    (ofString (String.ofList (joined '/' names))).parts = names := by
  cases names with
  | nil => decide
  | cons a r =>
    have hparts := ofString_ofParts fun n hn => (h n hn).isPart.1
    have hlist : String.ofList (joined '/' (a :: r)) = ofParts (a :: r) := by
      rw [joined, ← toList_ofParts (List.cons_ne_nil a r), String.ofList_toList]
    rw [hlist, hparts]

end Names

section Base

theorem toList_joinText_directory {dirs : List String} {name spec : String}
    (h : ∀ p ∈ dirs ++ [name], IsPart p) (hspec : spec.toList.head? ≠ some '/') :
    (joinText (directoryText (ofParts (dirs ++ [name]))) spec).toList =
      slashed dirs ++ spec.toList := by
  rw [directoryText_ofParts h]
  rcases List.eq_nil_or_concat dirs with rfl | ⟨init, last, rfl⟩
  · have hhead : (spec.toList.head? == some '/') = false := beq_eq_false_iff_ne.mpr hspec
    rw [if_pos rfl, joinText, hhead]
    simp [slashed]
  · rw [List.concat_eq_append] at *
    have hinit : ∀ p ∈ init ++ [last], IsPart p := fun p hp => h p (List.mem_append_left _ hp)
    rw [if_neg (by simp), joinText_concat hinit hspec, String.toList_append, String.toList_append,
      ← slashed_ofParts (by simp)]
    rfl

def dottedText (dots : Nat) (names : List String) : String :=
  String.ofList (List.replicate dots '.' ++ joined '.' names)

theorem toList_dotted (n : Nat) (names : List String) :
    (dottedText (n + 1) names).toList = '.' :: (List.replicate n '.' ++ joined '.' names) := by
  rw [dottedText, String.toList_ofList, List.replicate_succ, List.cons_append]

def ups : Nat → List String
  | 0 => ["."]
  | n + 1 => List.replicate (n + 1) ".."

theorem upward_eq (n : Nat) : upward (n + 1) = slashed (ups n) := by
  cases n with
  | zero => rfl
  | succ n =>
    rw [upward, ups, slashed, List.flatMap_def, List.map_replicate]
    rfl

variable {names : List String} (hnames : ∀ n ∈ names, IsName n) (n : Nat)

include hnames

theorem mem_dotted : ∀ c ∈ List.replicate (n + 1) '.' ++ joined '.' names,
    Text.isWord c = true ∨ c = '.' := by
  rw [List.forall_mem_append]
  exact ⟨fun c hc => .inr (List.eq_of_mem_replicate hc), mem_joined hnames⟩

theorem dotted?_dotted : dotted? (List.replicate (n + 1) '.' ++ joined '.' names) =
    some (n + 1, joined '.' names) := by
  have hhead : ∀ c ∈ (joined '.' names).head?, (c == '.') = false := fun c hc =>
    beq_eq_false_iff_ne.mpr (isWord_ne (head_joined hnames c hc)).2.1
  have hdots : ∀ c ∈ List.replicate (n + 1) '.', (c == '.') = true := fun c hc =>
    beq_iff_eq.mpr (List.eq_of_mem_replicate hc)
  have hbreak : ((joined '.' names).getLast? == some '\n') = false := by
    rw [beq_eq_false_iff_ne]
    intro hlast
    rcases mem_joined hnames _ (List.mem_of_getLast? hlast) with hword | heq
    · exact (isWord_ne hword).2.2.2 rfl
    · exact absurd heq (by decide)
  rw [dotted?, takeWhile_append_of_head hdots hhead, dropWhile_append_of_head hdots hhead,
    List.length_replicate]
  simp only [hbreak]
  simpa using fun c hc hword => (mem_joined hnames c hc).resolve_left (by simp [hword])

theorem normalise_dotted : (normalise (dottedText (n + 1) names)).toList =
    slashed (ups n) ++ joined '/' names := by
  have hpath : hasPathForm (List.replicate (n + 1) '.' ++ joined '.' names) = false := by
    rw [hasPathForm, List.any_eq_false]
    intro p hp hprefix
    have hslash : ∀ p ∈ ["./", "../", "/"], '/' ∈ p.toList := by decide
    have hmem := (List.isPrefixOf_iff_prefix.mp hprefix).subset (hslash p hp)
    rcases mem_dotted hnames n _ hmem with hword | heq
    · exact (isWord_ne hword).1 rfl
    · exact absurd heq (by decide)
  rw [normalise, dottedText, String.toList_ofList, hpath, if_neg Bool.false_ne_true,
    dotted?_dotted hnames]
  simp only [String.toList_ofList, upward_eq, joined_map hnames]

theorem withoutQuery_dotted :
    withoutQuery (dottedText (n + 1) names) = dottedText (n + 1) names := by
  have hquery : ∀ c ∈ (dottedText (n + 1) names).toList, (c != '?') = true := by
    rw [dottedText, String.toList_ofList]
    intro c hc
    rw [bne_iff_ne]
    intro heq
    rcases mem_dotted hnames n c hc with hword | hdot
    · exact (isWord_ne hword).2.2.1 heq
    · exact absurd (heq.symm.trans hdot) (by decide)
  rw [withoutQuery, List.takeWhile_eq_self_iff.mpr hquery, String.ofList_toList]

theorem parts_slashed_dotted {dirs : List String} (h : ∀ p ∈ dirs, IsPart p) :
    (ofString (String.ofList (slashed (dirs ++ ups n) ++ joined '/' names))).parts =
      dirs ++ (List.replicate n ".." ++ names) := by
  have hups : (∀ p ∈ ups n, '/' ∉ p.toList) ∧
      (ups n).filter isKeptPart = List.replicate n ".." := by
    cases n with
    | zero => decide
    | succ n =>
      have hmark : isKeptPart ".." = true ∧ '/' ∉ "..".toList := by decide
      refine ⟨fun p hp => ?_, List.filter_eq_self.mpr fun p hp => ?_⟩
      · rw [List.eq_of_mem_replicate hp]
        exact hmark.2
      · rw [List.eq_of_mem_replicate hp]
        exact hmark.1
  have hslash : ∀ p ∈ dirs ++ ups n, '/' ∉ p.toList :=
    List.forall_mem_append.mpr ⟨fun p hp => (h p hp).2.2, hups.1⟩
  rw [parts_slashed hslash, List.filter_append, filter_isKeptPart h, hups.2, parts_joined hnames,
    List.append_assoc]

theorem base_dotted {dirs : List String} {name : String} (h : ∀ p ∈ dirs ++ [name], IsPart p)
    (hup : ".." ∉ dirs) : base (dottedText (n + 1) names) (ofParts (dirs ++ [name])) =
      ofParts (dirs.take (dirs.length - n) ++
        (List.replicate (n - dirs.length) ".." ++ names)) := by
  have hspec := normalise_dotted hnames n
  have hhead : (normalise (dottedText (n + 1) names)).toList.head? = some '.' := by
    rw [hspec]
    cases n <;> rfl
  have hslash : (normalise (dottedText (n + 1) names)).toList.head? ≠ some '/' := by
    rw [hhead]
    decide
  have hdirs : ∀ p ∈ dirs, IsPart p := fun p hp => h p (List.mem_append_left _ hp)
  have htext := toList_joinText_directory h hslash
  have hanchor : (joinText (directoryText (ofParts (dirs ++ [name])))
      (normalise (dottedText (n + 1) names))).toList.head? ≠ some '/' := by
    refine head_joinText ?_ hslash
    exact head_of_isPrefix (directoryText_isPrefix _) (head_ofParts h)
  have hparts := parts_slashed_dotted hnames n hdirs
  rw [slashed_append, List.append_assoc, ← hspec, ← htext, String.ofList_toList] at hparts
  have hnoup : ".." ∉ names := fun hmem => (hnames _ hmem).isPart.2 rfl
  delta base
  dsimp only
  rw [withoutQuery_dotted hnames]
  split
  next r heq =>
    rw [heq] at hslash
    exact absurd rfl hslash
  next =>
    have hrelative := anchorOf_of_head hanchor
    rw [normalText, Path.normalise, hparts, ofString, hrelative, isAbsolute]
    exact congrArg ofParts (resolveParts_climb hup hnoup n)

end Base

section Modules

def IsPython (path : String) : Prop := ".py".toList <:+ path.toList

instance (path : String) : Decidable (IsPython path) := inferInstanceAs (Decidable (_ <:+ _))

def modules (parts : List String) : List (List String) :=
  match parts.getLast? with
  | none => [["index.py"], ["__init__.py"]]
  | some last =>
    [parts, parts.dropLast ++ [last ++ ".py"], parts ++ ["index.py"], parts ++ ["__init__.py"]]

theorem modules_concat (init : List String) (last : String) : modules (init ++ [last]) =
    [init ++ [last], init ++ [last ++ ".py"], init ++ [last] ++ ["index.py"],
      init ++ [last] ++ ["__init__.py"]] := by
  simp [modules]

theorem isPython_ofParts (init : List String) {last : String} (h : 3 ≤ last.toList.length)
    (front : String) : IsPython (ofParts (init ++ [front ++ last])) ↔ IsPython last := by
  rw [IsPython, toList_ofParts_slashed, String.toList_append, ← List.append_assoc]
  constructor
  · intro hsuffix
    exact List.suffix_of_suffix_length_le hsuffix (List.suffix_append _ _) h
  · intro hsuffix
    exact hsuffix.trans (List.suffix_append _ _)

theorem filter_isPython {names kept : List String} (init : List String) (front : String)
    (hlong : ∀ e ∈ names, 3 ≤ e.toList.length) (hkept : names.filter (IsPython ·) = kept) :
    ((names.map fun e => init ++ [front ++ e]).map ofParts).filter (IsPython ·) =
      (kept.map fun e => init ++ [front ++ e]).map ofParts := by
  rw [List.map_map, List.filter_map, List.map_map, ← hkept]
  congr 1
  refine List.filter_congr fun e he => ?_
  exact decide_eq_decide.mpr (isPython_ofParts init (hlong e he) front)

theorem filter_choices (parts : List String) :
    ((choices parts).map ofParts).filter (IsPython ·) =
      ((modules parts).map ofParts).filter (IsPython ·) := by
  rcases List.eq_nil_or_concat parts with rfl | ⟨init, last, rfl⟩
  · decide
  have hchoices : choices (init ++ [last]) = [init ++ [last]] ++
      extensions.map (fun e => init ++ [last ++ e]) ++
        indexFiles.map fun i => init ++ [last] ++ ["" ++ i] := by
    simp [choices_concat]
  have hmodules : modules (init ++ [last]) = [init ++ [last]] ++
      [".py"].map (fun e => init ++ [last ++ e]) ++
        ["index.py", "__init__.py"].map fun i => init ++ [last] ++ ["" ++ i] := by
    simp [modules_concat]
  have hextensions : extensions.filter (IsPython ·) = [".py"] := by decide
  have hfiles : indexFiles.filter (IsPython ·) = ["index.py", "__init__.py"] := by decide
  have hkept : [".py"].filter (IsPython ·) = [".py"] ∧
      ["index.py", "__init__.py"].filter (IsPython ·) = ["index.py", "__init__.py"] := by decide
  have hendings := filter_isPython init last (by decide) hextensions
  have hindices := filter_isPython (init ++ [last]) "" (by decide) hfiles
  have hending := filter_isPython init last (by decide) hkept.1
  have hindex := filter_isPython (init ++ [last]) "" (by decide) hkept.2
  rw [List.concat_eq_append, hchoices, hmodules, List.map_append, List.map_append,
    List.filter_append, List.filter_append, List.map_append, List.map_append, List.filter_append,
    List.filter_append, hendings, hindices, hending, hindex]

theorem find?_filter_of_imp {α : Type} {p q : α → Bool} (h : ∀ a, q a = true → p a = true)
    (l : List α) : (l.filter p).find? q = l.find? q := by
  rw [List.find?_filter]
  congr 1
  funext a
  cases hq : q a with
  | true => simp [h a hq]
  | false => simp

variable {isFile : String → Bool}

theorem find?_choices (hpy : ∀ path, isFile path = true → IsPython path) (parts : List String) :
    ((choices parts).map ofParts).find? isFile = ((modules parts).map ofParts).find? isFile := by
  have himp : ∀ path, isFile path = true → decide (IsPython path) = true := fun path hpath =>
    decide_eq_true (hpy path hpath)
  rw [← find?_filter_of_imp himp, filter_choices, find?_filter_of_imp himp]

theorem staysInside_of_parts {parts : List String} (h : ∀ p ∈ parts, IsPart p) (hne : parts ≠ [])
    (hup : ".." ∉ parts) : staysInside (ofParts parts) = true := by
  obtain ⟨init, last, rfl⟩ : ∃ init last, parts = init ++ [last] :=
    ⟨_, _, (List.dropLast_concat_getLast hne).symm⟩
  have hread : (ofString (ofParts (init ++ [last]))).parts = init ++ [last] :=
    congrArg Path.parts (ofString_ofParts h)
  obtain ⟨hdot, hempty⟩ := ofParts_concat_ne h
  have hmark : ofParts (init ++ [last]) ≠ ".." := by
    intro heq
    have hparts : (ofString "..").parts = [".."] := by decide
    rw [heq, hparts] at hread
    exact hup (hread ▸ List.mem_singleton_self _)
  have hstart : "../".toList.isPrefixOf (ofParts (init ++ [last])).toList = false := by
    rw [Bool.eq_false_iff, ne_eq, List.isPrefixOf_iff_prefix]
    intro hprefix
    obtain ⟨t, ht⟩ := hprefix
    have hslashed : "../".toList = slashed [".."] := rfl
    have hslash : ∀ p ∈ [".."], '/' ∉ p.toList := by decide
    have hparts := parts_slashed hslash t
    rw [← hslashed, ht, String.ofList_toList, hread] at hparts
    exact hup (hparts ▸ List.mem_append_left _ (by decide))
  rw [staysInside, hstart]
  simp [hdot, hempty, hmark]

end Modules

section Resolution

variable {isFile : String → Bool} {names : List String}

theorem mem_choices {parts c : List String} (h : c ∈ choices parts) :
    (parts ≠ [] ∧ c = parts) ∨
      (∃ init last, parts = init ++ [last] ∧ ∃ e ∈ extensions, c = init ++ [last ++ e]) ∨
        ∃ i ∈ indexFiles, c = parts ++ [i] := by
  rcases List.eq_nil_or_concat parts with rfl | ⟨init, last, rfl⟩
  · rw [choices_nil] at h
    obtain ⟨i, hi, rfl⟩ := List.mem_map.mp h
    exact .inr (.inr ⟨i, hi, rfl⟩)
  · rw [List.concat_eq_append, choices_concat, List.cons_append, List.mem_cons,
      List.mem_append] at h
    rcases h with rfl | h | h
    · exact .inl ⟨by simp, by rw [List.concat_eq_append]⟩
    · obtain ⟨e, he, rfl⟩ := List.mem_map.mp h
      exact .inr (.inl ⟨init, last, List.concat_eq_append, e, he, rfl⟩)
    · obtain ⟨i, hi, rfl⟩ := List.mem_map.mp h
      exact .inr (.inr ⟨i, hi, by rw [List.concat_eq_append]⟩)

theorem inside_of_mem_choices {parts c : List String} (hparts : ∀ p ∈ parts, IsPart p)
    (hup : ".." ∉ parts) (h : c ∈ choices parts) : c ≠ [] ∧ ".." ∉ c := by
  rcases mem_choices h with ⟨hne, rfl⟩ | ⟨init, last, rfl, e, he, rfl⟩ | ⟨i, hi, rfl⟩
  · exact ⟨hne, hup⟩
  · have hadded := (isPart_append (hparts last (by simp)) he).2
    rw [List.mem_append, not_or] at hup
    exact ⟨by simp, by simp [hup.1, Ne.symm hadded]⟩
  · exact ⟨by simp, by simp [hup, Ne.symm (index_spec i hi).2]⟩

theorem candidates_of_inside {specifier referencer : String} {parts : List String}
    (hparts : ∀ p ∈ parts, IsPart p) (hup : ".." ∉ parts)
    (hbase : base specifier referencer = ofParts parts) :
    candidates specifier referencer = (choices parts).map ofParts := by
  have hn : IsNormal parts := isNormal_of_notMem hup
  rw [candidates_of_base hparts hn hbase, List.filter_eq_self.mpr]
  intro c hc
  obtain ⟨hne, hin⟩ := inside_of_mem_choices hparts hup hc
  exact staysInside_of_parts (isNormal_of_mem_choices hparts hn hc).1 hne hin

/-- A choice stays inside the repository, although its path does not, only where it is named like
a parent mark with an ending. -/
theorem mem_choices_of_outside {parts c : List String} (hhead : parts.head? = some "..")
    (hc : c ∈ choices parts) (hstays : ".." ∉ c) :
    parts = [".."] ∧ ∃ e ∈ extensions, c = [".." ++ e] := by
  have hmem := List.mem_of_head? hhead
  rcases mem_choices hc with ⟨-, rfl⟩ | ⟨init, last, rfl, e, he, rfl⟩ | ⟨i, hi, rfl⟩
  · exact absurd hmem hstays
  · cases init with
    | nil =>
      obtain rfl : last = ".." := by simpa using hhead
      exact ⟨rfl, e, he, rfl⟩
    | cons p r =>
      obtain rfl : p = ".." := by simpa using hhead
      exact absurd List.mem_cons_self hstays
  · exact absurd (List.mem_append_left _ hmem) hstays

variable {dirs : List String} {name : String}

theorem resolve?_eq_filter {specifier referencer : String} (h : isRelative specifier = true) :
    resolve? ⟨isFile, true⟩ specifier referencer =
      ((candidates specifier referencer).find? isFile).filter (· != referencer) := by
  rw [resolve?, if_pos h]
  simp only [Bool.not_true, Bool.false_or]
  cases (candidates specifier referencer).find? isFile with
  | none => rfl
  | some path => by_cases heq : path = referencer <;> simp [heq, Option.filter]

theorem isNormal_marks (n : Nat) (hup : ".." ∉ names) :
    IsNormal (List.replicate n ".." ++ names) := by
  refine List.pairwise_append.mpr ⟨?_, ?_, ?_⟩
  · exact List.pairwise_replicate.mpr (.inr id)
  · exact isNormal_of_notMem hup
  · intro a ha b _ _
    exact List.eq_of_mem_replicate ha

theorem not_isFile_of_outside (hpy : ∀ path, isFile path = true → IsPython path)
    {specifier referencer path : String} {parts : List String} (hparts : ∀ p ∈ parts, IsPart p)
    (hn : IsNormal parts) (hhead : parts.head? = some "..")
    (hbase : base specifier referencer = ofParts parts)
    (hmem : path ∈ candidates specifier referencer) (hpath : isFile path = true) :
    parts = [".."] ∧ isFile "...py" = true := by
  have honly : ∀ e ∈ extensions, IsPython e → e = ".py" := by decide
  rw [candidates_of_base hparts hn hbase] at hmem
  obtain ⟨c, hc, rfl⟩ := List.mem_map.mp hmem
  obtain ⟨hchoice, hstays⟩ := List.mem_filter.mp hc
  have hcn := (isNormal_of_mem_choices hparts hn hchoice).2
  obtain ⟨hone, e, he, rfl⟩ := mem_choices_of_outside hhead hchoice
    (staysInside_ofParts hcn hstays).2
  have hpython := (isPython_ofParts [] (ending_spec e he).1 "..").mp (hpy _ hpath)
  obtain rfl := honly e he hpython
  exact ⟨hone, hpath⟩

/-- A base that climbs out of the repository leads to no file, unless it is the folder of the
repository and a file there is named like a parent mark with an ending. -/
theorem find?_of_outside (hpy : ∀ path, isFile path = true → IsPython path)
    {specifier referencer : String} {climbed : Nat} (hpart : ∀ p ∈ names, IsPart p)
    (hup : ".." ∉ names)
    (hbase : base specifier referencer = ofParts (List.replicate (climbed + 1) ".." ++ names))
    (hexcept : names ≠ [] ∨ climbed ≠ 0 ∨ isFile "...py" = false) :
    (candidates specifier referencer).find? isFile = none := by
  have hparts : ∀ p ∈ List.replicate (climbed + 1) ".." ++ names, IsPart p := by
    rw [List.forall_mem_append]
    refine ⟨fun p hp => ?_, hpart⟩
    rw [List.eq_of_mem_replicate hp]
    decide
  rw [List.find?_eq_none]
  intro path hmem hpath
  obtain ⟨hone, hknown⟩ := not_isFile_of_outside hpy hparts (isNormal_marks _ hup)
    (by simp [List.replicate_succ]) hbase hmem hpath
  have hlength := congrArg List.length hone
  rw [List.length_append, List.length_replicate, List.length_singleton] at hlength
  rcases hexcept with hne | hne | hfalse
  · have hpos := List.length_pos_iff.mpr hne
    omega
  · omega
  · exact Bool.false_ne_true (hfalse.symm.trans hknown)

/-- Seen from a file below `dirs`, a dotted specifier that climbs out of the repository means
nothing, and any other means the first file among the modules of its base, unless that file is
the one that it is seen from. -/
theorem resolve?_dotted (hpy : ∀ path, isFile path = true → IsPython path)
    (hfile : ∀ p ∈ dirs ++ [name], IsPart p) (hup : ".." ∉ dirs)
    (hnames : ∀ n ∈ names, IsName n) (n : Nat) :
    (dirs.length < n → names ≠ [] ∨ n ≠ dirs.length + 1 ∨ isFile "...py" = false →
      resolve? ⟨isFile, true⟩ (dottedText (n + 1) names) (ofParts (dirs ++ [name])) = none) ∧
    (n ≤ dirs.length →
      resolve? ⟨isFile, true⟩ (dottedText (n + 1) names) (ofParts (dirs ++ [name])) =
        (((modules (dirs.take (dirs.length - n) ++ names)).map ofParts).find? isFile).filter
          (· != ofParts (dirs ++ [name]))) := by
  have hrelative : isRelative (dottedText (n + 1) names) = true := by
    simp only [isRelative, toList_dotted]
  have hbase := base_dotted hnames n hfile hup
  have hpart : ∀ p ∈ names, IsPart p := fun p hp => (hnames p hp).isPart.1
  have hnoup : ".." ∉ names := fun hmem => (hnames _ hmem).isPart.2 rfl
  rw [resolve?_eq_filter hrelative]
  constructor
  · intro hout hexcept
    obtain ⟨k, rfl⟩ : ∃ k, n = dirs.length + (k + 1) := ⟨n - dirs.length - 1, by omega⟩
    rw [Nat.add_sub_cancel_left, Nat.sub_add_eq, Nat.sub_self, Nat.zero_sub, List.take_zero,
      List.nil_append] at hbase
    rw [find?_of_outside hpy hpart hnoup hbase (hexcept.imp_right (.imp_left (by omega)))]
    rfl
  · intro hin
    have hzero : n - dirs.length = 0 := by omega
    rw [hzero, List.replicate_zero, List.nil_append] at hbase
    have hparts : ∀ p ∈ dirs.take (dirs.length - n) ++ names, IsPart p :=
      List.forall_mem_append.mpr
        ⟨fun p hp => hfile p (List.mem_append_left _ (List.mem_of_mem_take hp)), hpart⟩
    have hinside : ".." ∉ dirs.take (dirs.length - n) ++ names := by
      rw [List.mem_append, not_or]
      exact ⟨fun hmem => hup (List.mem_of_mem_take hmem), hnoup⟩
    rw [candidates_of_inside hparts hinside hbase, find?_choices hpy]

def pythonFiles (known : List String) : Resolver := ⟨known.contains, true⟩

theorem resolve?_dotted_models : (pythonFiles ["pkg/models.py"]).resolve?
    (dottedText 2 ["models"]) (ofParts (["pkg", "sub"] ++ ["a.py"])) = some "pkg/models.py" := by
  have hknown : ∀ path, ["pkg/models.py"].contains path = true → IsPython path := by
    intro path hpath
    obtain rfl : path = "pkg/models.py" := by simpa using hpath
    decide
  have hnames : ∀ n ∈ ["models"], IsName n :=
    List.forall_mem_singleton.mpr ⟨by decide, List.all_eq_true.mp (by decide)⟩
  exact ((resolve?_dotted hknown (by decide) (by decide) hnames 1).2 (by decide)).trans (by decide)

/-- An index file comes before the initialiser, a folder known as a file comes first, a parent
mark with an ending is met outside, and not every letter of a name is a word character. -/
theorem not_pythonRules :
    (pythonFiles ["pkg/index.py", "pkg/__init__.py"]).resolve? ".pkg" "a.py" =
      some "pkg/index.py" ∧
    (pythonFiles ["lib.py"]).resolve? "." "lib.py/a.py" = some "lib.py" ∧
    (pythonFiles ["...py"]).resolve? ".." "a.py" = some "...py" ∧
    (pythonFiles ["की.py"]).resolve? ".की" "a.py" = none := by decide +kernel

end Resolution

end ChangeImpact.Imports.Resolver
