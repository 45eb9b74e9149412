import ChangeImpact.Proofs.Imports.Go.Entries

/-!
# The imports of a program in Go

Single imports and blocks are scanned apart and put in the order of their places. The import list
of a program is that of its declarations, in their order, just where in every block the paths end
before a closing parenthesis.
-/

namespace ChangeImpact.Imports.Go

open Text

/-! ## What is found in a part of a text -/

section Located

variable {before : Option Char} {s t rest : List Char} {located located' : List (Nat × List Char)}
  {paths paths' : List (List Char)} {isRead isRead' : Prop}

def entries (find : Nat × (Nat × List Char)) : List (Nat × List Char) :=
  (findAll entry find.2.2).map fun f => (find.1 + find.2.1 + f.1, f.2)

def Locates (before : Option Char) (s rest : List Char) (located : List (Nat × List Char)) : Prop :=
  ∃ singles blocks, Finds single before s rest singles ∧ Finds block before s rest blocks ∧
    (singles ++ blocks.flatMap entries).Perm located ∧ Placed s.length located

theorem Locates.of_silent (hsingle : Silent single before s rest)
    (hblock : Silent block before s rest) : Locates before s rest [] :=
  ⟨[], [], hsingle.finds, hblock.finds, .refl _, placed_nil _⟩

theorem flatMap_entries_shift (n : Nat) (blocks : List (Nat × (Nat × List Char))) :
    (blocks.map fun f => (n + f.1, f.2)).flatMap entries =
      (blocks.flatMap entries).map fun f => (n + f.1, f.2) := by
  simp only [List.flatMap_map, List.map_flatMap, entries, List.map_map, Function.comp_def,
    Nat.add_assoc]

theorem Locates.append (hs : Locates before s (t ++ rest) located)
    (ht : Locates (s.getLast?.or before) t rest located') :
    Locates before (s ++ t) rest (located ++ located'.map fun f => (s.length + f.1, f.2)) := by
  obtain ⟨singles, blocks, hsingles, hblocks, hperm, hplaced⟩ := hs
  obtain ⟨singles', blocks', hsingles', hblocks', hperm', hplaced'⟩ := ht
  refine ⟨_, _, hsingles.append hsingles', hblocks.append hblocks', ?_, ?_⟩
  · rw [List.flatMap_append, flatMap_entries_shift]
    have hshift := hperm'.map fun f => (s.length + f.1, f.2)
    rw [List.map_append] at hshift
    refine List.Perm.trans ?_ (hperm.append hshift)
    simp only [List.append_assoc]
    exact (List.perm_append_comm_assoc _ _ _).append_left singles
  · rw [List.length_append]
    exact hplaced.append hplaced'

theorem specifiers_of_locates (h : Locates none s [] located) :
    specifiers s = located.map (·.2) := by
  obtain ⟨singles, blocks, hsingles, hblocks, hperm, hplaced⟩ := h
  rw [← hsingles.findAll_eq, ← hblocks.findAll_eq] at hperm
  exact inOrder_of_perm hperm hplaced.1

def Gives (before : Option Char) (s rest : List Char) (paths : List (List Char)) (isRead : Prop) :
    Prop :=
  ∃ located, Locates before s rest located ∧ Covers located paths isRead

theorem Gives.of_silent (hsingle : Silent single before s rest)
    (hblock : Silent block before s rest) : Gives before s rest [] True :=
  ⟨[], .of_silent hsingle hblock, Nat.le_refl _, iff_of_true rfl trivial⟩

theorem Gives.append (hs : Gives before s (t ++ rest) paths isRead)
    (ht : Gives (s.getLast?.or before) t rest paths' isRead') :
    Gives before (s ++ t) rest (paths ++ paths') (isRead ∧ isRead') := by
  obtain ⟨located, hlocated, hcovers⟩ := hs
  obtain ⟨located', hlocated', hcovers'⟩ := ht
  exact ⟨_, hlocated.append hlocated', hcovers.append (hcovers'.shift _)⟩

end Located

/-! ## Lines without a declaration -/

section Begins

variable {before : Option Char} {s r rest : List Char}

theorem BeginsWithImport.of_append (hrest : ∀ c ∈ rest.head?, c = '\n')
    (h : BeginsWithImport (s ++ rest)) : BeginsWithImport s := by
  obtain ⟨r, hs, hr⟩ := h
  obtain ⟨t, ht⟩ := prefix_skipMargin_of_append (by decide) hrest ⟨r, hs.symm⟩
  rw [skipMargin_append (isMargin_of_newline hrest), ← ht, List.append_assoc] at hs
  rw [← List.append_cancel_left hs] at hr
  refine ⟨t, ht.symm, fun c hc => hr c ?_⟩
  rw [List.head?_append, Option.mem_def.mp hc]
  rfl

theorem exists_inName (h : ¬ BeginsWithImport s)
    (hafter : after? importWord (skipMargin s) = some r) : ∃ c t, r = c :: t ∧ inName c = true := by
  by_contra hnone
  refine h ⟨r, after?_eq_some.mp hafter, fun c hc => ?_⟩
  obtain ⟨t, rfl⟩ := List.head?_eq_some_iff.mp hc
  exact Bool.eq_false_iff.mpr fun hname => hnone ⟨c, t, rfl, hname⟩

theorem single_of_not_begins (h : ¬ BeginsWithImport s) : single before s = none := by
  rw [single]
  split
  · simp only [Option.bind_eq_bind, Option.bind_eq_none_iff]
    intro r hafter
    obtain ⟨c, t, rfl, hc⟩ := exists_inName h hafter
    simp [margin?_of_head (forall_head?_cons.mpr (isMargin_of_opens (.inl hc)))]
  · rfl

theorem block_of_not_begins (h : ¬ BeginsWithImport s) : block before s = none := by
  rw [block]
  split
  · simp only [Option.bind_eq_bind, Option.bind_eq_none_iff]
    intro r hafter
    obtain ⟨c, t, rfl, hc⟩ := exists_inName h hafter
    have hparen : c ≠ '(' := by
      rintro rfl
      exact absurd hc (by decide)
    simp [skipMargin_of_head (forall_head?_cons.mpr (isMargin_of_opens (.inl hc))),
      after?_of_head (forall_head?_cons.mpr hparen)]
  · rfl

theorem single_atLines : AtLines single := fun _ _ h =>
  if_neg (by rw [h]; exact Bool.false_ne_true)

theorem block_atLines : AtLines block := fun _ _ h =>
  if_neg (by rw [h]; exact Bool.false_ne_true)

end Begins

/-! ## Single imports -/

section Singles

variable {before : Option Char} {rest : List Char}

def Single.taken (d : Single) : List Char :=
  d.indent.text ++ (importWord ++ (d.toSpec.text ++ d.spec.text))

theorem Single.text_eq (d : Single) : d.text = d.taken ++ d.ending.text := by
  simp only [text, taken, List.append_assoc]

theorem after?_import (i : Indent) (s : List Char) :
    after? "import".toList (skipMargin (i.text ++ (importWord ++ s))) = some s := by
  have hword : ∀ c ∈ (importWord ++ s).head?, isMargin c = false :=
    forall_head?_cons.mpr (by decide)
  rw [skipMargin_indent i hword]
  exact after?_append importWord s

theorem Single.after?_taken (d : Single) (s : List Char) :
    after? "import".toList (skipMargin (d.taken ++ s)) =
      some (d.toSpec.text ++ (d.spec.text ++ s)) := by
  simp only [taken, List.append_assoc]
  exact after?_import d.indent _

theorem Single.single_taken (d : Single) (hstart : atLineStart before = true) (s : List Char) :
    single before (d.taken ++ s) = some (d.spec.path, d.taken.length) := by
  have hmargin : margin? (d.toSpec.text ++ (d.spec.text ++ s)) = some (d.spec.text ++ s) :=
    margin?_gap d.toSpec fun c hc => isMargin_of_opens (d.spec.head_text s c hc)
  rw [single, if_pos hstart]
  simp only [Option.bind_eq_bind, d.after?_taken, Option.bind_some, hmargin, d.spec.spec?_text,
    List.length_append, Nat.add_sub_cancel]
  rfl

theorem Single.block_taken (d : Single) (s : List Char) : block before (d.taken ++ s) = none := by
  have hskip : skipMargin (d.toSpec.text ++ (d.spec.text ++ s)) = d.spec.text ++ s :=
    dropWhile_append_of_head d.toSpec.isMargin fun c hc =>
      isMargin_of_opens (d.spec.head_text s c hc)
  have hparen : after? ['('] (d.spec.text ++ s) = none := after?_of_head (fun c hc => by
    rcases d.spec.head_text s c hc with hname | rfl
    · rintro rfl
      exact absurd hname (by decide)
    · decide) []
  rw [block]
  simp only [Option.bind_eq_bind, d.after?_taken, Option.bind_some, hskip, hparen, Option.bind_none]
  exact ite_self none

theorem Single.newline_notMem (d : Single) : '\n' ∉ d.text := by
  simp only [text, List.mem_append, not_or]
  exact ⟨d.indent.newline_notMem, by decide, d.toSpec.newline_notMem, d.spec.newline_notMem,
    d.ending.newline_notMem⟩

theorem Single.gives (d : Single) (hstart : atLineStart before = true) :
    Gives before d.text rest [d.spec.path] True := by
  have hne : d.taken ≠ [] := by simp [taken, Spec.text]
  have hline := d.newline_notMem
  have hblock : Silent block before d.text rest := by
    refine block_atLines.silent_line hline ?_
    rw [d.text_eq, List.append_assoc, d.block_taken]
  have hsingle : Finds single before d.text rest [(0, d.spec.path)] := by
    rw [d.text_eq] at hline ⊢
    have htaken : Finds single before d.taken (d.ending.text ++ rest) [(0, d.spec.path)] :=
      finds_of_find hne (d.single_taken hstart _)
    exact htaken.append (single_atLines.silent_line_behind hline hne).finds
  refine ⟨[(0, d.spec.path)], ⟨_, [], hsingle, hblock.finds, .refl _, placed_singleton ?_⟩, ?_⟩
  · exact List.length_pos_of_ne_nil (by simp [Single.text, Spec.text])
  · exact ⟨Nat.le_refl _, iff_of_true rfl trivial⟩

end Singles

/-! ## Blocks -/

section Blocks

variable {before : Option Char} {s rest : List Char}

theorem not_begins_of_bare (h : Bare s) : ¬ BeginsWithImport s := by
  rintro ⟨r, hs, -⟩
  rw [Bare, hs] at h
  exact absurd (h 'i' rfl).1 (by decide)

theorem Alias.not_begins (a : Alias) (i : Indent) (s : List Char) :
    ¬ BeginsWithImport (i.text ++ (a.text ++ s)) := by
  rintro ⟨r, hs, hr⟩
  obtain ⟨c, t, hname⟩ := List.exists_cons_of_ne_nil a.ne_nil
  have hc := a.inName c (hname ▸ List.mem_cons_self)
  have hhead : ∀ d ∈ (a.text ++ s).head?, isMargin d = false := by
    rw [Alias.text, hname]
    exact forall_head?_cons.mpr (isMargin_of_opens (.inl hc))
  have hword : ∀ c ∈ importWord, Go.inName c = true := List.all_eq_true.mp (by decide)
  rw [skipMargin_indent i hhead, Alias.text, List.append_assoc] at hs
  have hsame := congrArg (List.takeWhile Go.inName) hs
  rw [takeWhile_append_of_head a.inName (inName_gap a.toPath s),
    takeWhile_append_of_head hword hr] at hsame
  exact a.noKeyword hsame

theorem Line.not_begins (l : Line) (hs : ∀ c ∈ s.head?, c = '\n' ∨ c = ')') :
    ¬ BeginsWithImport (l.text ++ s) := by
  rw [text, List.append_assoc, List.append_assoc]
  cases l.spec with
  | none =>
    refine not_begins_of_bare (bare_blanks l.indent.isBlank (l.ending.bare (bare_of_head ?_)))
    intro c hc
    rcases hs c hc with rfl | rfl <;> decide
  | some e =>
    rw [Option.elim_some, Spec.text, Spec.opening, List.append_assoc]
    cases e.renamed with
    | none =>
      rintro ⟨r, heq, -⟩
      rw [Option.elim_none, List.nil_append, List.cons_append,
        skipMargin_indent l.indent (forall_head?_cons.mpr (by decide))] at heq
      exact absurd (List.cons.inj heq).1 (by decide)
    | some a => exact a.not_begins l.indent _

/-- No line of a block begins as an import declaration does. -/
theorem linesBehind_joined (lines : List Line) (hs : '\n' ∉ s) :
    LinesBehind (fun v => ¬ BeginsWithImport v) ('\n' :: (joined lines ++ ')' :: s)) := by
  have hclosing : '\n' ∉ ')' :: s := List.not_mem_cons_of_ne_of_not_mem (by decide) hs
  induction lines with
  | nil =>
    refine linesBehind_newline.mpr ⟨not_begins_of_bare ?_, linesBehind_of_notMem hclosing⟩
    exact bare_of_head (forall_head?_cons.mpr (by decide))
  | cons l r ih =>
    cases r with
    | nil =>
      rw [joined, List.map_singleton, List.intercalate_singleton]
      refine linesBehind_newline.mpr ⟨l.not_begins (forall_head?_cons.mpr (.inr rfl)), ?_⟩
      exact (linesBehind_of_notMem hclosing).append_left l.newline_notMem
    | cons m r =>
      rw [joined_cons_cons, List.append_assoc, List.append_assoc]
      refine linesBehind_newline.mpr ⟨l.not_begins (forall_head?_cons.mpr (.inl rfl)), ?_⟩
      exact ih.append_left l.newline_notMem

namespace Block

def opening (b : Block) : List Char :=
  b.indent.text ++ (importWord ++ (b.toLines.text ++ ['(']))

theorem text_eq (b : Block) : b.text = b.opening ++ (joined b.all ++ ')' :: b.ending.text) := by
  simp only [text, opening, List.append_assoc, List.singleton_append]

theorem after?_opening (b : Block) (s : List Char) :
    after? "import".toList (skipMargin (b.opening ++ s)) =
      some (b.toLines.text ++ (['('] ++ s)) := by
  simp only [opening, List.append_assoc]
  exact after?_import b.indent _

theorem linesBehind_text (b : Block) : LinesBehind (fun v => ¬ BeginsWithImport v) b.text := by
  have hopening : '\n' ∉ b.opening := by
    simp only [opening, List.mem_append, not_or]
    exact ⟨b.indent.newline_notMem, by decide, b.toLines.newline_notMem, by decide⟩
  rw [text_eq]
  exact (linesBehind_newline.mp
    (linesBehind_joined b.all b.ending.newline_notMem)).2.append_left hopening

theorem single_opening (b : Block) (s : List Char) : single before (b.opening ++ s) = none := by
  have hparen : ∀ c ∈ (['('] ++ s).head?, isMargin c = false := forall_head?_cons.mpr (by decide)
  have hspec : (margin? (b.toLines.text ++ (['('] ++ s))).bind spec? = none := by
    by_cases hempty : b.toLines.text = []
    · rw [hempty, List.nil_append, margin?_of_head hparen, Option.bind_none]
    · rw [margin?_gap ⟨b.toLines.text, b.toLines.isMargin, hempty⟩ hparen, Option.bind_some]
      exact spec?_of_head (forall_head?_cons.mpr (by decide))
  rw [single]
  simp only [Option.bind_eq_bind, b.after?_opening, Option.bind_some]
  rw [← Option.bind_assoc, hspec, Option.bind_none]
  exact ite_self none

def taken (b : Block) : List Char := b.opening ++ (cut (joined b.all) ++ [')'])

theorem taken_ne_nil (b : Block) : b.taken ≠ [] := by simp [taken]

theorem length_inside_le (b : Block) {left : List Char} (h : b.taken ++ left = b.text) :
    b.opening.length + (cut (joined b.all)).length ≤ b.text.length := by
  rw [← h, taken]
  simp only [List.length_append]
  omega

theorem exists_left (b : Block) : ∃ left, b.taken ++ left = b.text ∧
    ∀ s, cut? ')' (joined b.all ++ ')' :: (b.ending.text ++ s)) =
      some (cut (joined b.all), left ++ s) := by
  obtain ⟨left, hsplit, hcut⟩ := exists_cut? ')' (joined b.all)
  have hsplit' : cut (joined b.all) ++ ([')'] ++ left) = joined b.all ++ [')'] := hsplit
  refine ⟨left ++ b.ending.text, ?_, fun s => ?_⟩
  · rw [text_eq, taken, List.append_assoc, List.append_assoc, ← List.append_assoc [')'],
      ← List.append_assoc (cut _), hsplit', List.append_assoc, List.singleton_append]
  · rw [hcut, List.append_assoc]
    rfl

theorem exists_block_text (b : Block) (hstart : atLineStart before = true) :
    ∃ left, b.taken ++ left = b.text ∧ ∀ s, block before (b.text ++ s) =
      some ((b.opening.length, cut (joined b.all)), b.taken.length) := by
  obtain ⟨left, htext, hcut⟩ := b.exists_left
  refine ⟨left, htext, fun s => ?_⟩
  have hopening : b.text ++ s = b.opening ++ (joined b.all ++ ')' :: (b.ending.text ++ s)) := by
    rw [text_eq, List.append_assoc, List.append_assoc, List.cons_append]
  have hinside : (b.text ++ s).length - (joined b.all ++ ')' :: (b.ending.text ++ s)).length =
      b.opening.length := by
    rw [hopening, List.length_append, Nat.add_sub_cancel]
  have htaken : (b.text ++ s).length - (left ++ s).length = b.taken.length := by
    rw [← htext, List.append_assoc, List.length_append, Nat.add_sub_cancel]
  have hword : after? "import".toList (skipMargin (b.text ++ s)) =
      some (b.toLines.text ++ (['('] ++ (joined b.all ++ ')' :: (b.ending.text ++ s)))) := by
    rw [hopening, after?_opening]
  have hskip (t : List Char) : skipMargin (b.toLines.text ++ (['('] ++ t)) = ['('] ++ t :=
    skipMargin_indent b.toLines (forall_head?_cons.mpr (by decide))
  rw [block, if_pos hstart]
  simp only [Option.bind_eq_bind, hword, Option.bind_some, hskip, after?_append, hcut, hinside,
    htaken]
  rfl

theorem gives (b : Block) (hstart : atLineStart before = true)
    (hrest : ∀ c ∈ rest.head?, c = '\n') :
    Gives before b.text rest (pathsOf b.all) (AreRead b.all) := by
  have hlines := b.linesBehind_text
  have hsingle : Silent single before b.text rest := by
    refine single_atLines.silent (fun _ v hv => ?_) hlines ?_
    · exact single_of_not_begins fun hbegins => hv (hbegins.of_append hrest)
    · rw [text_eq, List.append_assoc, single_opening]
  obtain ⟨left, htext, hfind⟩ := b.exists_block_text hstart
  have hblock : Finds block before b.text rest [(0, b.opening.length, cut (joined b.all))] := by
    have hfirst := hfind rest
    rw [← htext] at hlines ⊢
    rw [← htext, List.append_assoc] at hfirst
    refine Finds.append (finds_of_find b.taken_ne_nil hfirst)
      (block_atLines.silent_behind (fun _ v hv => ?_) hlines b.taken_ne_nil).finds
    exact block_of_not_begins fun hbegins => hv (hbegins.of_append hrest)
  obtain ⟨found, hfinds, hplaced, hcovers⟩ := entries_cut b.all (rfl : atLineStart none = true)
  have hinside := hplaced.shift (b.length_inside_le htext)
  refine ⟨_, ⟨[], _, hsingle.finds, hblock, ?_, hinside⟩, hcovers.shift _⟩
  rw [List.nil_append, List.flatMap_singleton, entries, hfinds.findAll_eq]
  simp only [Nat.zero_add]
  exact .refl _

end Block

end Blocks

/-! ## Items and programs -/

section Items

variable {before : Option Char} {rest : List Char}

theorem OtherLine.gives (l : OtherLine) (hrest : ∀ c ∈ rest.head?, c = '\n') :
    Gives before l.text rest [] True := by
  have hnone : ¬ BeginsWithImport (l.text ++ rest) := fun h => l.noImport (h.of_append hrest)
  exact .of_silent (single_atLines.silent_line l.oneLine (single_of_not_begins hnone))
    (block_atLines.silent_line l.oneLine (block_of_not_begins hnone))

theorem Item.gives (i : Item) (hstart : atLineStart before = true)
    (hrest : ∀ c ∈ rest.head?, c = '\n') : Gives before i.text rest i.paths i.IsRead := by
  cases i with
  | single d => exact d.gives hstart
  | block b => exact b.gives hstart hrest
  | other l => exact l.gives hrest

theorem gives_newline : Gives before ['\n'] rest [] True := by
  have hnone : ¬ BeginsWithImport (['\n'] ++ rest) :=
    not_begins_of_bare (bare_of_head (forall_head?_cons.mpr (by decide)))
  exact .of_silent (silent_cons.mpr ⟨single_of_not_begins hnone, silent_nil⟩)
    (silent_cons.mpr ⟨block_of_not_begins hnone, silent_nil⟩)

theorem joins_gives : Joins Gives where
  nil _ _ := .of_silent silent_nil silent_nil
  newline _ _ := gives_newline
  append := Gives.append

theorem Program.specifiers_text (p : Program) :
    specifiers p.text = p.paths ↔ ∀ i ∈ p.items, i.IsRead := by
  obtain ⟨located, hlocated, -, hiff⟩ := joins_gives.items (fun i _ _ => i.gives) p.items
    (rfl : atLineStart none = true)
  rw [Program.text, specifiers_of_locates hlocated]
  exact hiff

end Items

/-- The import list of the program is that of its declarations, in their order. -/
def Program.IsExact (p : Program) : Prop :=
  Extractors.standard.run (some .go) (String.ofList p.text) = .ok (p.paths.map String.ofList)

theorem Program.isExact_iff_specifiers (p : Program) :
    p.IsExact ↔ specifiers p.text = p.paths := by
  rw [IsExact, standard_eq_ok, Except.ok.injEq, Imports.specifiers, String.toList_ofList]
  exact (List.map_injective_iff.mpr fun _ _ => String.ofList_injective).eq_iff

/-- The import list is exact just where in every block the paths end before a closing
parenthesis. -/
theorem Program.isExact_iff_areRead (p : Program) :
    p.IsExact ↔ ∀ b, Item.block b ∈ p.items → AreRead b.all := by
  rw [isExact_iff_specifiers, specifiers_text]
  constructor
  · exact fun h b hb => h _ hb
  · intro h i hi
    cases i with
    | single d => trivial
    | block b => exact h b hi
    | other l => trivial

def remarked : Program where
  items :=
    let margin : Indent := ⟨"".toList, List.all_eq_true.mp (by decide)⟩
    let blank : Indent := ⟨" ".toList, List.all_eq_true.mp (by decide)⟩
    let tab : Indent := ⟨"\t".toList, List.all_eq_true.mp (by decide)⟩
    let ending : LineEnd := ⟨"".toList, by simp, none⟩
    let comment : LineEnd :=
      ⟨" ".toList, List.forall_mem_singleton.mpr (by decide), some ⟨" x (y)".toList, by decide⟩⟩
    let a : Spec := ⟨none, "a".toList, by decide, List.all_eq_true.mp (by decide)⟩
    let b : Spec := ⟨none, "b".toList, by decide, List.all_eq_true.mp (by decide)⟩
    let package : OtherLine := ⟨"package m".toList, by decide, by
      rintro ⟨r, h, -⟩
      exact absurd (List.head_eq_of_cons_eq h : 'p' = 'i') (by decide)⟩
    [.other package,
    .block {
      indent := margin
      toLines := blank
      lines := [⟨margin, none, ending⟩, ⟨tab, some a, comment⟩, ⟨tab, some b, ending⟩]
      last := ⟨margin, none, ending⟩
      uncommented := rfl
      ending := ending }]

example : remarked.text = "package m\nimport (\n\t\"a\" // x (y)\n\t\"b\"\n)".toList := by decide

theorem not_isExact_remarked : ¬ remarked.IsExact := by
  intro h
  have hread := remarked.specifiers_text.mp (remarked.isExact_iff_specifiers.mp h) _
    (List.mem_cons_of_mem _ List.mem_cons_self)
  have hbehind := hread.2.resolve_left (by decide)
  exact absurd (hbehind.2.2.resolve_left (by decide)).1 (by decide)

end ChangeImpact.Imports.Go
