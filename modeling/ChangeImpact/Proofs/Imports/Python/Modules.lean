import ChangeImpact.Proofs.Imports.Python.Lines

/-!
# How a list of modules is read

The modules of an import statement are read one by one. The list is left where a module or its
other name holds a character that is none of a word, so that the modules behind it are not read.
-/

namespace ChangeImpact.Imports.Python

open Text

/-! ## What follows a name -/

section Follows

variable {s : List Char}

def Follows (marks s : List Char) : Prop := ∀ c ∈ (skipMargin s).head?, c ∈ marks

theorem Follows.mono {marks marks' : List Char} (h : Follows marks s) (hsub : marks ⊆ marks') :
    Follows marks' s := fun c hc => hsub (h c hc)

theorem follows_blanks_cons (b : Blanks) {c : Char} (hc : isMargin c = false) (s : List Char) :
    Follows [c] (b.text ++ c :: s) := by
  rw [Follows, skipMargin_blanks, skipMargin_of_head (forall_head?_cons.mpr hc)]
  exact forall_head?_cons.mpr List.mem_cons_self

theorem Follows.head {marks : List Char} (h : Follows marks s) :
    ∀ c ∈ s.head?, isMargin c = true ∨ c ∈ marks := by
  intro c hc
  by_cases hmargin : isMargin c = true
  · exact .inl hmargin
  · rw [Bool.not_eq_true] at hmargin
    rw [Follows, skipMargin_of_head fun d hd => Option.some.inj (hc.symm.trans hd) ▸ hmargin] at h
    exact .inr (h c hc)

def behindName : List Char := [',', '#', '\n']

theorem Follows.part (h : Follows behindName s) :
    ∀ c ∈ s.head?, (isWord c || c == '.') = false := by
  have hmarks : (' ' :: '\t' :: behindName).all fun c => !(isWord c || c == '.') := by decide
  intro c hc
  have hmem : c ∈ ' ' :: '\t' :: behindName := by
    rcases h.head c hc with hmargin | hmark
    · rcases isMargin_iff.mp hmargin with rfl | rfl <;> simp
    · exact List.mem_cons_of_mem _ (List.mem_cons_of_mem _ hmark)
  simpa using List.all_eq_true.mp hmarks c hmem

theorem Follows.word (h : Follows behindName s) : ∀ c ∈ s.head?, isWord c = false := fun c hc =>
  (Bool.or_eq_false_iff.mp (h.part c hc)).1

def Stops (s : List Char) : Prop := after? [','] (skipMargin s) = none

theorem stops_of_follows (h : Follows ['#', '\n'] s) : Stops s := by
  refine after?_of_head (fun c hc => ?_) []
  exact ne_of_mem_of_not_mem (h c hc) (by decide)

theorem stops_cons {c : Char} (hc : inIdentifier c = true) (s : List Char) : Stops (c :: s) := by
  have hcomma : c ≠ ',' := by
    rintro rfl
    exact notMem_marks_of_inIdentifier hc (by decide)
  rw [Stops, skipMargin_of_head (forall_head?_cons.mpr (isMargin_of_inIdentifier hc))]
  exact after?_of_head (forall_head?_cons.mpr hcomma) []

end Follows

/-! ## Steps -/

section Steps

variable {n : Nat} {s : List Char}

theorem moreModules_of_stops (h : Stops s) (n : Nat) : moreModules n s = ([], s) := by
  cases n with
  | zero => rfl
  | succ n => rw [moreModules, h]

def modulesAt (n : Nat) (s : List Char) : Option (List (List Char) × List Char) :=
  (dottedName? s).map fun (name, r) =>
    (name :: (moreModules n (skipAlias r)).1, (moreModules n (skipAlias r)).2)

theorem moreModules_comma (before behind : Blanks) (hs : ∀ c ∈ s.head?, isMargin c = false) :
    moreModules (n + 1) (before.text ++ ',' :: (behind.text ++ s)) =
      (modulesAt n s).getD ([], before.text ++ ',' :: (behind.text ++ s)) := by
  have hcomma : skipMargin (before.text ++ ',' :: (behind.text ++ s)) =
      [','] ++ (behind.text ++ s) := by
    rw [skipMargin_blanks]
    exact skipMargin_of_head (forall_head?_cons.mpr (by decide))
  rw [moreModules, hcomma, after?_append]
  simp only
  rw [skipMargin_blanks, skipMargin_of_head hs, modulesAt]
  cases dottedName? s <;> rfl

theorem skipAlias_of_head (hs : ∀ c ∈ s.head?, isMargin c = false) : skipAlias s = s := by
  rw [skipAlias, margin?_of_head hs]
  rfl

theorem skipAlias_of_follows (h : Follows behindName s) : skipAlias s = s := by
  rw [skipAlias, margin?]
  split
  · rfl
  · have has : after? "as".toList (s.dropWhile isMargin) = none := by
      refine after?_of_head (fun c hc => ?_) ['s']
      exact ne_of_mem_of_not_mem (h c hc) (by decide)
    rw [Option.bind_eq_bind, Option.bind_some, has]
    rfl

theorem skipAlias_text (a : Alias) (s : List Char) : skipAlias (a.text ++ s) =
    if ((a.name.text ++ s).takeWhile isWord).isEmpty then a.text ++ s
    else (a.name.text ++ s).dropWhile isWord := by
  obtain ⟨c, r, hname, hc⟩ := a.name.exists_cons
  have has : ∀ d ∈ ("as".toList ++ (a.toName.text ++ (a.name.text ++ s))).head?,
      isMargin d = false := forall_head?_cons.mpr (by decide)
  have hhead : ∀ d ∈ (a.name.text ++ s).head?, isMargin d = false := by
    rw [hname]
    exact forall_head?_cons.mpr (isMargin_of_inIdentifier hc)
  have hsteps : a.text ++ s =
      a.toAs.text ++ ("as".toList ++ (a.toName.text ++ (a.name.text ++ s))) := by
    simp only [Alias.text, List.append_assoc]
  rw [skipAlias, hsteps, margin?_gap _ has]
  simp only [Option.bind_eq_bind, Option.bind_some, after?_append, margin?_gap _ hhead]
  unfold isNameChar
  split <;> rfl

theorem Alias.part_head (a : Alias) (s : List Char) :
    ∀ c ∈ (a.text ++ s).head?, (isWord c || c == '.') = false := by
  intro c hc
  obtain ⟨d, hd, hmargin⟩ := a.toAs.head ("as".toList ++ (a.toName.text ++ a.name.text) ++ s)
  rw [Alias.text, List.append_assoc] at hc
  obtain rfl := Option.some.inj (hd.symm.trans hc)
  rcases isMargin_iff.mp hmargin with rfl | rfl <;> decide

theorem Alias.stops (a : Alias) (s : List Char) : Stops (a.text ++ s) := by
  have hskip : skipMargin (a.text ++ s) =
      'a' :: 's' :: (a.toName.text ++ (a.name.text ++ s)) := by
    simp only [Alias.text, List.append_assoc, skipMargin]
    exact dropWhile_append_of_head a.toAs.isMargin (forall_head?_cons.mpr (by decide))
  rw [Stops, hskip]
  exact after?_of_head (forall_head?_cons.mpr (by decide)) []

theorem dottedName?_append_cons {w : List Char} (hw : IsLegible w) {c : Char}
    (hc : (isWord c || c == '.') = false) (s : List Char) :
    dottedName? (w ++ c :: s) = if w.isEmpty then none else some (w, c :: s) := by
  have hhead : ∀ d ∈ (c :: s).head?, (isWord d || d == '.') = false := forall_head?_cons.mpr hc
  rw [dottedName?, takeWhile_append_of_head hw hhead, dropWhile_append_of_head hw hhead]

end Steps

/-! ## One module -/

namespace Imported

variable {n : Nat} {s : List Char}

def IsLegible (i : Imported) : Prop :=
  Python.IsLegible i.module.text ∧ ∀ a ∈ i.renamed, ∀ c ∈ a.name.text, isWord c = true

theorem text_ne_nil (i : Imported) : i.text ≠ [] := by
  obtain ⟨c, r, hmodule, -⟩ := i.module.exists_cons
  simp [text, hmodule]

theorem modulesAt_legible (i : Imported) (h : i.IsLegible) (hs : Follows behindName s) :
    modulesAt n (i.text ++ s) =
      some (i.module.text :: (moreModules n s).1, (moreModules n s).2) := by
  obtain ⟨c, r, hmodule, -⟩ := i.module.exists_cons
  have hne : i.module.text ≠ [] := by
    rw [hmodule]
    exact List.cons_ne_nil c r
  have halias : skipAlias (i.renamed.elim [] Alias.text ++ s) = s := by
    cases ha : i.renamed with
    | none => exact skipAlias_of_follows hs
    | some a =>
      have hword := h.2 a ha
      rw [Option.elim_some, skipAlias_text, takeWhile_append_of_head hword hs.word,
        dropWhile_append_of_head hword hs.word, if_neg (by simpa using a.name.ne_nil)]
  have hhead : ∀ d ∈ (i.renamed.elim [] Alias.text ++ s).head?, (isWord d || d == '.') = false := by
    cases ha : i.renamed with
    | none => exact hs.part
    | some a => exact a.part_head s
  rw [text, List.append_assoc, modulesAt, dottedName?_append hne h.1 hhead, Option.map_some]
  simp only [halias]

theorem modulesAt_module (i : Imported) (h : ¬ Python.IsLegible i.module.text) (s : List Char) :
    modulesAt n (i.text ++ s) = none ∨ ∃ name left, name ++ left = i.text ∧ name ≠ [] ∧
      modulesAt n (i.text ++ s) = some ([name], left ++ s) ∧ name ≠ i.module.text := by
  obtain ⟨w, c, v, hmodule, hw, hc⟩ := exists_first_not h
  have hidentifier : inIdentifier c = true := by
    refine (i.module.inIdentifier_or_dot c (hmodule ▸ by simp)).resolve_right ?_
    rintro rfl
    exact absurd hc (by decide)
  have htext : i.text = w ++ c :: (v ++ i.renamed.elim [] Alias.text) := by
    rw [text, hmodule, List.append_assoc, List.cons_append]
  rw [htext, List.append_assoc, List.cons_append, modulesAt, dottedName?_append_cons hw hc]
  by_cases hempty : w = []
  · rw [hempty]
    exact .inl rfl
  · refine .inr ⟨w, _, rfl, hempty, ?_, ?_⟩
    · have hhead : ∀ d ∈ (c :: (v ++ i.renamed.elim [] Alias.text ++ s)).head?,
          isMargin d = false := forall_head?_cons.mpr (isMargin_of_inIdentifier hidentifier)
      rw [if_neg (by simpa using hempty), Option.map_some]
      simp only [skipAlias_of_head hhead, moreModules_of_stops (stops_cons hidentifier _),
        List.cons_append]
    · rw [hmodule]
      simp

theorem modulesAt_alias (i : Imported) (h : Python.IsLegible i.module.text) {a : Alias}
    (ha : i.renamed = some a) (hname : ¬ ∀ c ∈ a.name.text, isWord c = true) (s : List Char) :
    ∃ used left, used ++ left = i.text ∧ used ≠ [] ∧
      modulesAt n (i.text ++ s) = some ([i.module.text], left ++ s) := by
  obtain ⟨c, r, hmodule, -⟩ := i.module.exists_cons
  have hne : i.module.text ≠ [] := by
    rw [hmodule]
    exact List.cons_ne_nil c r
  have htext : i.text = i.module.text ++ a.text := by
    rw [text, ha, Option.elim_some]
  have hhead : ∀ d ∈ (a.text ++ s).head?, (isWord d || d == '.') = false := a.part_head s
  obtain ⟨w, d, v, haname, hw, hd⟩ := exists_first_not hname
  have hidentifier : inIdentifier d = true := a.name.isPart d (haname ▸ by simp)
  have hword : ∀ e ∈ (d :: (v ++ s)).head?, isWord e = false := forall_head?_cons.mpr hd
  have halias := skipAlias_text a s
  rw [haname, List.append_assoc, List.cons_append, takeWhile_append_of_head hw hword,
    dropWhile_append_of_head hw hword] at halias
  rw [htext, List.append_assoc, modulesAt, dottedName?_append hne h hhead, Option.map_some]
  by_cases hempty : w = []
  · rw [if_pos (by simpa using hempty)] at halias
    refine ⟨i.module.text, a.text, rfl, hne, ?_⟩
    simp only [halias, moreModules_of_stops (a.stops s)]
  · rw [if_neg (by simpa using hempty)] at halias
    refine ⟨i.module.text ++ (a.toAs.text ++ ("as".toList ++ (a.toName.text ++ w))), d :: v, ?_,
      by simp [hne], ?_⟩
    · simp only [Alias.text, haname, List.append_assoc]
    · simp only [halias, moreModules_of_stops (stops_cons hidentifier _), List.cons_append]

/-- Where the module or its other name is not legible, no module behind it is read. -/
theorem modulesAt_illegible (i : Imported) (h : ¬ i.IsLegible) (s : List Char) :
    (modulesAt n (i.text ++ s) = none ∧ ¬ Python.IsLegible i.module.text) ∨
      ∃ name used left, used ++ left = i.text ∧ used ≠ [] ∧
        modulesAt n (i.text ++ s) = some ([name], left ++ s) ∧
        (name = i.module.text ↔ Python.IsLegible i.module.text) := by
  by_cases hmodule : Python.IsLegible i.module.text
  · obtain ⟨a, ha, hname⟩ : ∃ a, i.renamed = some a ∧ ¬ ∀ c ∈ a.name.text, isWord c = true := by
      simpa [IsLegible, hmodule] using h
    obtain ⟨used, left, htext, hne, hread⟩ := i.modulesAt_alias (n := n) hmodule ha hname s
    exact .inr ⟨_, used, left, htext, hne, hread, iff_of_true rfl hmodule⟩
  · refine (i.modulesAt_module (n := n) hmodule s).imp (fun hnone => ⟨hnone, hmodule⟩) ?_
    rintro ⟨name, left, htext, hne, hread, hdiff⟩
    exact ⟨name, name, left, htext, hne, hread, iff_of_false hdiff hmodule⟩

end Imported

/-! ## A list of modules -/

namespace Modules

variable {n : Nat} {t : List Char}

theorem exists_cons (l : Modules) : ∃ c r, l.text = c :: r ∧ inIdentifier c = true := by
  have hfirst (i : Imported) (s : List Char) : ∃ c r, i.text ++ s = c :: r ∧
      inIdentifier c = true := by
    obtain ⟨c, r, hi, hc⟩ := i.module.exists_cons
    exact ⟨c, r ++ i.renamed.elim [] Alias.text ++ s, by rw [Imported.text, hi]; rfl, hc⟩
  cases l with
  | last i =>
    obtain ⟨c, r, hi, hc⟩ := hfirst i []
    exact ⟨c, r, by rwa [List.append_nil] at hi, hc⟩
  | more i before behind rest => exact hfirst i _

theorem names_ne_nil (l : Modules) : l.names ≠ [] := by
  cases l <;> exact List.cons_ne_nil _ _

def Yields (l : Modules) (t : List Char) (found : Option (List (List Char) × List Char)) : Prop :=
  (found = none ∧ ¬ l.IsRead) ∨ ∃ read used left, used ++ left = l.text ∧ used ≠ [] ∧
    found = some (read, left ++ t) ∧ read.length ≤ l.names.length ∧ (read = l.names ↔ l.IsRead)

theorem yields_last (i : Imported) (ht : Follows ['#', '\n'] t) :
    (last i).Yields t (modulesAt n (i.text ++ t)) := by
  by_cases hlegible : i.IsLegible
  · have hread := i.modulesAt_legible (n := n) hlegible (ht.mono (List.subset_cons_self _ _))
    rw [moreModules_of_stops (stops_of_follows ht)] at hread
    exact .inr ⟨_, i.text, [], List.append_nil _, i.text_ne_nil, hread, Nat.le_refl _,
      iff_of_true rfl hlegible.1⟩
  · refine (i.modulesAt_illegible (n := n) hlegible t).imp id ?_
    rintro ⟨name, used, left, htext, hne, hread, hiff⟩
    exact ⟨[name], used, left, htext, hne, hread, Nat.le_refl _, by simpa [names, IsRead] using hiff⟩

theorem yields_more (i : Imported) (before behind : Blanks) (rest : Modules)
    (h : ¬ i.IsLegible) :
    (more i before behind rest).Yields t
      (modulesAt n ((more i before behind rest).text ++ t)) := by
  have hunread : ¬ (more i before behind rest).IsRead := fun hread => h ⟨hread.1, hread.2.1⟩
  have htext : (more i before behind rest).text ++ t =
      i.text ++ (before.text ++ ',' :: (behind.text ++ (rest.text ++ t))) := by
    simp only [text, List.append_assoc, List.cons_append]
  rw [htext]
  refine (i.modulesAt_illegible (n := n) h _).imp (fun hnone => ⟨hnone.1, hunread⟩) ?_
  rintro ⟨name, used, left, hi, hne, hread, -⟩
  refine ⟨[name], used, left ++ (before.text ++ ',' :: (behind.text ++ rest.text)), ?_, hne, ?_,
    Nat.succ_le_succ (Nat.zero_le _), iff_of_false (fun heq => ?_) hunread⟩
  · rw [← List.append_assoc, hi, text]
  · simp only [hread, List.append_assoc, List.cons_append]
  · exact rest.names_ne_nil (List.cons.inj heq).2.symm

/-- The induction is on the list; every module after the first takes one step of the reader. -/
theorem yields_modulesAt (l : Modules) (ht : Follows ['#', '\n'] t)
    (hn : l.names.length ≤ n + 1) : l.Yields t (modulesAt n (l.text ++ t)) := by
  induction l generalizing n with
  | last i => exact yields_last i ht
  | more i before behind rest ih =>
    by_cases hlegible : i.IsLegible
    · have hlength := List.length_pos_of_ne_nil rest.names_ne_nil
      rw [names, List.length_cons] at hn
      obtain ⟨n, rfl⟩ : ∃ m, n = m + 1 := ⟨n - 1, by omega⟩
      obtain ⟨c, r, hrest, hc⟩ := rest.exists_cons
      have hhead : ∀ d ∈ (rest.text ++ t).head?, isMargin d = false := by
        rw [hrest]
        exact forall_head?_cons.mpr (isMargin_of_inIdentifier hc)
      have hfollows : Follows behindName
          (before.text ++ ',' :: (behind.text ++ (rest.text ++ t))) :=
        (follows_blanks_cons before (by decide) _).mono (by decide)
      have htext : (more i before behind rest).text ++ t =
          i.text ++ (before.text ++ ',' :: (behind.text ++ (rest.text ++ t))) := by
        simp only [text, List.append_assoc, List.cons_append]
      rw [htext, i.modulesAt_legible hlegible hfollows, moreModules_comma before behind hhead]
      rcases ih (n := n) (by omega) with ⟨hnone, hunread⟩ | ⟨read, used, left, hsplit, -, hread,
        hle, hiff⟩
      · rw [hnone]
        refine .inr ⟨[i.module.text], i.text, before.text ++ ',' :: (behind.text ++ rest.text), rfl,
          i.text_ne_nil, ?_, Nat.succ_le_succ (Nat.zero_le _), ?_⟩
        · simp only [Option.getD_none, List.append_assoc, List.cons_append]
        · refine iff_of_false (fun heq => ?_) fun hall => hunread hall.2.2
          exact rest.names_ne_nil (List.cons.inj heq).2.symm
      · rw [hread]
        refine .inr ⟨i.module.text :: read,
          i.text ++ (before.text ++ ',' :: (behind.text ++ used)), left, ?_, by
          simp [i.text_ne_nil], rfl, Nat.succ_le_succ hle, ?_⟩
        · simp only [text, ← hsplit, List.append_assoc, List.cons_append]
        · rw [names, List.cons.injEq, and_iff_right rfl, hiff]
          exact ⟨fun hall => ⟨hlegible.1, hlegible.2, hall⟩, fun hall => hall.2.2⟩
    · exact yields_more i before behind rest hlegible

theorem length_names_le (l : Modules) : l.names.length ≤ l.text.count ',' + 1 := by
  induction l with
  | last i => exact Nat.succ_le_succ (Nat.zero_le _)
  | more i before behind rest ih =>
    simp only [names, text, List.length_cons, List.count_append, List.count_cons_self]
    omega

/-- The commas are all behind the first module, so that the reader has steps for all of them. -/
theorem length_names_le_dropWhile (l : Modules) (t : List Char) : l.names.length ≤
    ((l.text ++ t).dropWhile fun c => isWord c || c == '.').length + 1 := by
  have hpart : ',' ∉ (l.text ++ t).takeWhile fun c => isWord c || c == '.' := fun hmem =>
    absurd (List.mem_takeWhile_imp hmem) (by decide)
  have hcount := congrArg (List.count ',')
    (List.takeWhile_append_dropWhile (p := fun c => isWord c || c == '.') (l := l.text ++ t))
  rw [List.count_append, List.count_eq_zero_of_not_mem hpart, List.count_append] at hcount
  have hle := List.count_le_length (a := ',')
    (l := (l.text ++ t).dropWhile fun c => isWord c || c == '.')
  have hnames := l.length_names_le
  omega

end Modules

/-! ## The statement -/

section Statement

variable {before : Option Char} {s rest : List Char}

theorem LineEnd.follows (e : LineEnd) (hrest : ∀ c ∈ rest.head?, c = '\n') :
    Follows ['#', '\n'] (e.text ++ rest) := by
  rw [Follows, text, List.append_assoc, skipMargin_blanks]
  cases e.comment with
  | none =>
    have hhead : ∀ c ∈ rest.head?, isMargin c = false := fun c hc => by rw [hrest c hc]; rfl
    rw [Option.elim_none, List.nil_append, skipMargin_of_head hhead]
    exact fun c hc => by simp [hrest c hc]
  | some c =>
    rw [Option.elim_some, Comment.spelling, List.cons_append,
      skipMargin_of_head (forall_head?_cons.mpr (by decide))]
    exact forall_head?_cons.mpr (by decide)

theorem importStatement_text (hstart : atLineStart before = true) (margin : Blanks) (gap : Gap)
    (hs : ∀ c ∈ s.head?, isMargin c = false) :
    importStatement before (margin.text ++ (Keyword.import_.word ++ (gap.text ++ s))) =
      (modulesAt (s.dropWhile fun c => isWord c || c == '.').length s).map fun (names, left) =>
        (names, (margin.text ++ (Keyword.import_.word ++ (gap.text ++ s))).length - left.length) := by
  have hword : skipMargin (margin.text ++ (Keyword.import_.word ++ (gap.text ++ s))) =
      "import".toList ++ (gap.text ++ s) := by
    rw [skipMargin_blanks]
    exact skipMargin_of_head (forall_head?_cons.mpr (by decide))
  rw [importStatement, if_pos hstart, hword]
  simp only [Option.bind_eq_bind, after?_append, Option.bind_some, margin?_gap gap hs]
  rw [modulesAt, dottedName?]
  split <;> rfl

theorem ImportLine.readsAs (l : ImportLine) (hstart : atLineStart before = true)
    (hrest : ∀ c ∈ rest.head?, c = '\n') :
    ReadsAs .import_ before l.text rest l.modules.names l.modules.IsRead := by
  obtain ⟨c, r, hfirst, hc⟩ := l.modules.exists_cons
  have hhead : ∀ d ∈ (l.modules.text ++ (l.ending.text ++ rest)).head?, isMargin d = false := by
    rw [hfirst]
    exact forall_head?_cons.mpr (isMargin_of_inIdentifier hc)
  have hfuel := l.modules.length_names_le_dropWhile (l.ending.text ++ rest)
  have htext : l.text ++ rest = l.margin.text ++ (Keyword.import_.word ++ (l.toModules.text ++
      (l.modules.text ++ (l.ending.text ++ rest)))) := by
    simp only [ImportLine.text, List.append_assoc]
  have hread := importStatement_text hstart l.margin l.toModules hhead
  rcases l.modules.yields_modulesAt (l.ending.follows hrest) hfuel with ⟨hnone, hunread⟩ |
    ⟨read, used, left, hsplit, -, hsome, hle, hiff⟩
  · rw [hnone] at hread
    exact .inl ⟨htext ▸ hread, hunread⟩
  · rw [hsome] at hread
    have hused : l.margin.text ++ (Keyword.import_.word ++ (l.toModules.text ++ used)) ++
        (left ++ l.ending.text) = l.text := by
      simp only [ImportLine.text, ← hsplit, List.append_assoc]
    have hne : Keyword.import_.word ++ (l.toModules.text ++ used) ≠ [] := List.cons_ne_nil _ _
    refine .inr ⟨read, _, _, hused, List.append_ne_nil_of_right_ne_nil _ hne, ?_, hle, hiff⟩
    have hlength := congrArg List.length hused
    rw [Keyword.recogniser, htext, hread, Option.map_some, ← htext]
    simp only [List.length_append] at hlength ⊢
    rw [Option.some.injEq, Prod.mk.injEq, and_iff_right rfl]
    omega

end Statement

end ChangeImpact.Imports.Python
