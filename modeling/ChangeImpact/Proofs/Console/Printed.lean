import ChangeImpact.Console.Block
import ChangeImpact.Proofs.Console.Labels
import ChangeImpact.Proofs.Path.Climbing
import Mathlib.Algebra.BigOperators.Group.List.Basic
import Mathlib.Algebra.Ring.Nat

/-!
# Printed lines

The lines that are printed can be told from the whole text. Every label of a tree has a line at
least, so a tree that is printed in as many lines as it has labels has one line for each.
-/

namespace ChangeImpact.Console

section Tabs

theorem mem_expandFrom {c : Char} (htab : c ≠ '\t') (hblank : c ≠ ' ') (place : Nat)
    (part line : Line) : c ∈ expandFrom place part line ↔ c ∈ part ∨ c ∈ line := by
  induction line generalizing place part with
  | nil => simp [expandFrom]
  | cons d r ih =>
    rw [expandFrom]
    split
    next hd =>
      have hblanks (n : Nat) : c ∉ List.replicate n ' ' := fun h =>
        hblank (List.eq_of_mem_replicate h)
      simp [ih, hblanks, hblank, beq_iff_eq.mp hd, htab]
    next => simp [ih, or_assoc, or_left_comm]

theorem expandFrom_of_noTab {line : Line} (h : '\t' ∉ line) (place : Nat) (part : Line) :
    expandFrom place part line = part.reverse ++ line := by
  induction line generalizing part with
  | nil => simp [expandFrom]
  | cons d r ih =>
    rw [List.mem_cons, not_or] at h
    rw [expandFrom, if_neg (by simpa using Ne.symm h.1), ih h.2]
    simp

theorem expandTabs_of_noTab {line : Line} (h : '\t' ∉ line) : expandTabs line = line :=
  expandFrom_of_noTab h 0 []

end Tabs

section Lines

def IsPrintable (s : List Char) : Prop := ∀ c ∈ s, ' ' ≤ c ∧ c ≤ '~'

instance (s : List Char) : Decidable (IsPrintable s) :=
  List.decidableBAll _ s

theorem isPrintable_nil : IsPrintable [] := List.forall_mem_nil _

theorem isPrintable_cons {c : Char} {s : List Char} :
    IsPrintable (c :: s) ↔ (' ' ≤ c ∧ c ≤ '~') ∧ IsPrintable s := List.forall_mem_cons

theorem isPrintable_append {s t : List Char} :
    IsPrintable (s ++ t) ↔ IsPrintable s ∧ IsPrintable t := List.forall_mem_append

theorem IsPrintable.isAscii {s : List Char} (h : IsPrintable s) : IsAscii s := by
  intro c hc
  have hle : c.toNat ≤ '~'.toNat := (h c hc).2
  rw [isBeyondAscii, decide_eq_false_iff_not]
  exact fun hbeyond => absurd (hbeyond.trans hle) (by decide)

theorem IsPrintable.notMem {s : List Char} (h : IsPrintable s) {c : Char} (hc : c < ' ') : c ∉ s :=
  fun hmem => absurd (h c hmem).1 (Char.not_le.mpr hc)

theorem of_isStripped {c : Char} (h : isStripped c = true) :
    c < ' ' ∧ isBeyondAscii c = false := by
  have hall : ['\x07', '\x08', '\x0b', '\x0c', '\r'].all
      (fun d => d < ' ' ∧ isBeyondAscii d = false) = true := by decide
  exact of_decide_eq_true (List.all_eq_true.mp hall c (List.contains_iff_mem.mp h))

theorem IsPrintable.filter_stripped {s : List Char} (h : IsPrintable s) :
    s.filter (!isStripped ·) = s := by
  refine List.filter_eq_self.mpr fun c hc => ?_
  have hnot : ¬ isStripped c = true := fun hstripped => h.notMem (of_isStripped hstripped).1 hc
  simpa using hnot

theorem linesOf_eq_ok {s : String} {ls : List Line} : linesOf s = .ok ls ↔
    ∃ t, textOf [] (pieces s.toList) = .ok t ∧
      (Text.splitOn '\n' (t.filter (!isStripped ·))).map expandTabs = ls := by
  rw [linesOf, map_eq_ok]
  simp only [plainText, map_eq_ok]
  constructor
  · rintro ⟨_, ⟨t, ht, rfl⟩, h⟩
    exact ⟨t, ht, h⟩
  · rintro ⟨t, ht, h⟩
    exact ⟨_, ⟨t, ht, rfl⟩, h⟩

theorem linesOf_ne_nil {s : String} {ls : List Line} (h : linesOf s = .ok ls) : ls ≠ [] := by
  obtain ⟨t, -, rfl⟩ := linesOf_eq_ok.mp h
  rw [Text.splitOn, Text.splitWhere_eq_splitOnP, ne_eq, List.map_eq_nil_iff]
  exact List.splitOnP_ne_nil _ _

theorem newline_notMem_linesOf {s : String} {ls : List Line} (h : linesOf s = .ok ls) :
    ∀ l ∈ ls, '\n' ∉ l := by
  obtain ⟨t, -, rfl⟩ := linesOf_eq_ok.mp h
  refine List.forall_mem_map.mpr fun l hl hmem => Text.notMem_of_mem_splitOn hl ?_
  simpa using (mem_expandFrom (by decide) (by decide) 0 [] l).mp hmem

theorem linesOf_of_printable {s : String} {t : List Char}
    (h : textOf [] (pieces s.toList) = .ok t) (ht : IsPrintable t) : linesOf s = .ok [t] := by
  refine linesOf_eq_ok.mpr ⟨t, h, ?_⟩
  rw [ht.filter_stripped, Text.splitOn_of_notMem (ht.notMem (by decide)), List.map_singleton,
    expandTabs_of_noTab (ht.notMem (by decide))]

theorem isAscii_of_expandTabs {t : List Char}
    (h : IsAscii (expandTabs (t.filter (!isStripped ·)))) : IsAscii t := by
  intro c hc
  by_contra hbeyond
  rw [Bool.not_eq_false] at hbeyond
  have hne (d : Char) (hd : isBeyondAscii d = false) : c ≠ d := by
    rintro rfl
    rw [hbeyond] at hd
    cases hd
  have hkeep : ¬ isStripped c = true := fun hstripped => hne c (of_isStripped hstripped).2 rfl
  have hmem : c ∈ t.filter (!isStripped ·) := List.mem_filter.mpr ⟨hc, by simpa using hkeep⟩
  have hexpanded : c ∈ expandTabs (t.filter (!isStripped ·)) :=
    (mem_expandFrom (hne _ (by decide)) (hne _ (by decide)) 0 [] _).mpr (.inr hmem)
  rw [h c hexpanded] at hbeyond
  cases hbeyond

theorem textOf_of_linesOf {s : String} {line : Line} (h : linesOf s = .ok [line])
    (hline : IsPrintable line) (hs : IsPrintable s.toList) :
    textOf [] (pieces s.toList) = .ok line := by
  obtain ⟨t, ht, hlines⟩ := linesOf_eq_ok.mp h
  obtain ⟨u, hu, rfl⟩ := List.map_eq_singleton_iff.mp hlines
  obtain rfl : t.filter (!isStripped ·) = u := by
    rw [← Text.intercalate_splitOn '\n' (t.filter _), hu, List.intercalate_singleton]
  have hwhole : t = wholeText (pieces s.toList) :=
    eq_wholeText ht (isAscii_of_expandTabs hline.isAscii)
  have hprintable : IsPrintable t := by
    intro c hc
    rw [hwhole] at hc
    exact hs c ((wholeText_sublist 0 s.toList).subset hc)
  rw [ht, hprintable.filter_stripped, expandTabs_of_noTab (hprintable.notMem (by decide))]

theorem linesOf_label_iff {l : Label} (hstyle : l.IsStyled) (h : IsPrintable l.markup) :
    linesOf (String.ofList l.markup) = .ok [l.text] ↔ l.IsPlain := by
  have htext : IsPrintable l.text := fun c hc => h c (l.text_subset hc)
  rw [← l.textOf_eq_ok_iff hstyle htext.isAscii]
  constructor
  · intro hlines
    simpa using textOf_of_linesOf hlines htext (by simpa using h)
  · intro htextOf
    exact linesOf_of_printable (by simpa using htextOf) htext

end Lines

section Joined

variable {α β : Type}

theorem forall₂_append_left_iff {R : α → β → Prop} {l l' : List α} {u : List β} :
    List.Forall₂ R (l ++ l') u ↔
      ∃ v v', List.Forall₂ R l v ∧ List.Forall₂ R l' v' ∧ u = v ++ v' := by
  constructor
  · intro h
    induction l generalizing u with
    | nil => exact ⟨[], u, .nil, h, rfl⟩
    | cons a l ih =>
      obtain ⟨b, u, hb, hu, rfl⟩ := List.forall₂_cons_left_iff.mp h
      obtain ⟨v, v', hv, hv', rfl⟩ := ih hu
      exact ⟨b :: v, v', .cons hb hv, hv', rfl⟩
  · rintro ⟨v, v', hv, hv', rfl⟩
    exact List.rel_append hv hv'

theorem append_inj_of_length_le {a b x y : List β} (h : a ++ x = b ++ y)
    (ha : b.length ≤ a.length) (hx : y.length ≤ x.length) : a = b ∧ x = y := by
  have hlength := congrArg List.length h
  rw [List.length_append, List.length_append] at hlength
  exact List.append_inj h (by omega)

theorem forall_of_forall₂ {R : α → β → Prop} {P : β → Prop} {l : List α} {u : List β}
    (h : List.Forall₂ R l u) (hP : ∀ a b, R a b → P b) : ∀ b ∈ u, P b := by
  induction h with
  | nil => exact List.forall_mem_nil _
  | cons hb _ ih => exact List.forall_mem_cons.mpr ⟨hP _ _ hb, ih⟩

variable {f : α → List β} {R : α → List β → Prop} {l : List α} {ls : List (List β)}

theorem length_flatMap_le_of_forall₂ (hl : List.Forall₂ R l ls)
    (hle : ∀ a ∈ l, ∀ b, R a b → (f a).length ≤ b.length) :
    (l.flatMap f).length ≤ ls.flatten.length := by
  induction hl with
  | nil => exact Nat.le_refl 0
  | @cons a b l ls hb _ ih =>
    obtain ⟨ha, hl⟩ := List.forall_mem_cons.mp hle
    rw [List.flatMap_cons, List.flatten_cons, List.length_append, List.length_append]
    exact Nat.add_le_add (ha b hb) (ih hl)

/-- Lists that are no shorter than others are the others if they are joined to the same list. -/
theorem eq_map_of_flatten_eq (hl : List.Forall₂ R l ls)
    (hle : ∀ a ∈ l, ∀ b, R a b → (f a).length ≤ b.length) (h : ls.flatten = l.flatMap f) :
    ls = l.map f := by
  induction hl with
  | nil => rfl
  | @cons a b l ls hb hls ih =>
    obtain ⟨ha, hl⟩ := List.forall_mem_cons.mp hle
    rw [List.flatMap_cons, List.flatten_cons] at h
    obtain ⟨hb, hmore⟩ :=
      append_inj_of_length_le h (ha b hb) (length_flatMap_le_of_forall₂ hls hl)
    rw [List.map_cons, hb, ih hl hmore]

end Joined

section Trees

def branchesLines (branches : List (List Line)) : List Line :=
  branches.dropLast.flatMap (branchLines false) ++ branchLines true (branches.getLast?.getD [])

theorem treeLines_eq (root : List Line) (branches : List (List Line)) :
    treeLines root branches = root ++ branchesLines branches := by
  cases branches with
  | nil => simp [treeLines, branchesLines, branchLines]
  | cons b r => rw [treeLines, branchesLines, List.append_assoc]; simp

theorem branchesLines_cons_cons (b c : List Line) (r : List (List Line)) :
    branchesLines (b :: c :: r) = branchLines false b ++ branchesLines (c :: r) := by
  simp [branchesLines]

theorem branchesLines_singleton (b : List Line) : branchesLines [b] = branchLines true b := rfl

theorem length_branchLines (isLast : Bool) (b : List Line) :
    (branchLines isLast b).length = b.length := by
  cases b <;> simp [branchLines]

theorem branchLines_injective (isLast : Bool) : Function.Injective (branchLines isLast) := by
  intro b b' h
  cases b with
  | nil =>
    cases b' with
    | nil => rfl
    | cons first' more' => cases h
  | cons first more =>
    cases b' with
    | nil => cases h
    | cons first' more' =>
      obtain ⟨hfirst, hmore⟩ := List.cons.inj h
      rw [List.append_cancel_left hfirst,
        List.map_injective_iff.mpr (fun _ _ => List.append_cancel_left) hmore]

theorem length_branchesLines (branches : List (List Line)) :
    (branchesLines branches).length = (branches.map List.length).sum := by
  induction branches with
  | nil => rfl
  | cons b r ih =>
    cases r with
    | nil => simp [branchesLines_singleton, length_branchLines]
    | cons c r =>
      rw [branchesLines_cons_cons, List.length_append, length_branchLines, ih,
        List.map_cons (l := c :: r), List.sum_cons]

def plainTree (root : Line) (branches : List Line) : List Line :=
  treeLines [root] (branches.map ([·]))

variable {root : List Line} {branches : List (List Line)} {line : Line} {lines : List Line}

theorem length_le_of_ne_nil (hne : ∀ b ∈ branches, b ≠ [])
    (hlength : branches.length = lines.length) :
    (branchesLines (lines.map ([·]))).length ≤ (branchesLines branches).length := by
  have hone : ((lines.map ([·])).map List.length).sum = lines.length := by
    rw [List.map_map, Function.comp_def]
    simp only [List.length_singleton, List.map_const', List.sum_replicate_nat, Nat.mul_one]
  have hle := List.length_le_sum_of_one_le (branches.map List.length)
    (List.forall_mem_map.mpr fun b hb => List.length_pos_iff.mpr (hne b hb))
  rwa [length_branchesLines, length_branchesLines, hone, ← hlength,
    ← List.length_map (f := List.length)]

theorem branches_eq_of_lines (hne : ∀ b ∈ branches, b ≠ [])
    (hlength : branches.length = lines.length)
    (h : branchesLines branches = branchesLines (lines.map ([·]))) :
    branches = lines.map ([·]) := by
  induction branches generalizing lines with
  | nil => rw [List.eq_nil_of_length_eq_zero hlength.symm]; rfl
  | cons b r ih =>
    cases lines with
    | nil => cases hlength
    | cons line lines =>
      obtain ⟨hb, hr⟩ := List.forall_mem_cons.mp hne
      have hlength := Nat.succ.inj hlength
      -- The last branch is drawn in another way than those before it.
      cases r with
      | nil =>
        obtain rfl := List.eq_nil_of_length_eq_zero hlength.symm
        obtain rfl : b = [line] := branchLines_injective true h
        rfl
      | cons c r =>
        cases lines with
        | nil => cases hlength
        | cons line' lines =>
          rw [branchesLines_cons_cons, List.map_cons, List.map_cons, branchesLines_cons_cons] at h
          have hle := length_le_of_ne_nil hr hlength
          obtain ⟨hfirst, hmore⟩ := append_inj_of_length_le h
            (by rw [length_branchLines, length_branchLines]; exact List.length_pos_iff.mpr hb) hle
          rw [branchLines_injective false hfirst, ih hr hlength hmore]
          rfl

theorem length_plainTree_le (hroot : root ≠ []) (hne : ∀ b ∈ branches, b ≠ [])
    (hlength : branches.length = lines.length) :
    (plainTree line lines).length ≤ (treeLines root branches).length := by
  rw [plainTree, treeLines_eq, treeLines_eq, List.length_append, List.length_append]
  exact Nat.add_le_add (List.length_pos_iff.mpr hroot) (length_le_of_ne_nil hne hlength)

theorem eq_of_treeLines_eq_plainTree (hroot : root ≠ []) (hne : ∀ b ∈ branches, b ≠ [])
    (hlength : branches.length = lines.length)
    (h : treeLines root branches = plainTree line lines) :
    root = [line] ∧ branches = lines.map ([·]) := by
  rw [plainTree, treeLines_eq, treeLines_eq] at h
  obtain ⟨hline, hlines⟩ := append_inj_of_length_le h (List.length_pos_iff.mpr hroot)
    (length_le_of_ne_nil hne hlength)
  exact ⟨hline, branches_eq_of_lines hne hlength hlines⟩

theorem newline_notMem_branchLines {b : List Line} (h : ∀ l ∈ b, '\n' ∉ l) (isLast : Bool) :
    ∀ l ∈ branchLines isLast b, '\n' ∉ l := by
  cases b with
  | nil => exact List.forall_mem_nil _
  | cons first more =>
    obtain ⟨hfirst, hmore⟩ := List.forall_mem_cons.mp h
    have hstart : '\n' ∉ (if isLast then "└── " else "├── ").toList := by cases isLast <;> decide
    have hnext : '\n' ∉ (if isLast then "    " else "│   ").toList := by cases isLast <;> decide
    refine List.forall_mem_cons.mpr ⟨?_, List.forall_mem_map.mpr fun l hl => ?_⟩
    · rw [List.mem_append, not_or]
      exact ⟨hstart, hfirst⟩
    · rw [List.mem_append, not_or]
      exact ⟨hnext, hmore l hl⟩

theorem newline_notMem_treeLines (hroot : ∀ l ∈ root, '\n' ∉ l)
    (hbranches : ∀ b ∈ branches, ∀ l ∈ b, '\n' ∉ l) : ∀ l ∈ treeLines root branches, '\n' ∉ l := by
  rw [treeLines_eq, List.forall_mem_append]
  refine ⟨hroot, ?_⟩
  induction branches with
  | nil => exact List.forall_mem_nil _
  | cons b r ih =>
    obtain ⟨hb, hr⟩ := List.forall_mem_cons.mp hbranches
    cases r with
    | nil => exact newline_notMem_branchLines hb true
    | cons c r =>
      rw [branchesLines_cons_cons, List.forall_mem_append]
      exact ⟨newline_notMem_branchLines hb false, ih hr⟩

end Trees

section LabelTrees

def treeBlock (root : Label) (branches : List Label) : Block :=
  .tree (String.ofList root.markup) (branches.map fun l => String.ofList l.markup)

def plainTreeOf (root : Label) (branches : List Label) : List Line :=
  plainTree root.text (branches.map Label.text)

structure Label.IsProper (l : Label) : Prop where
  styled : l.IsStyled
  printable : IsPrintable l.markup

theorem Segment.isPrintable_markup {g : Segment} : IsPrintable g.markup ↔
    IsPrintable g.before ∧ IsPrintable g.style ∧ IsPrintable g.inside := by
  have hmarks : (' ' ≤ '[' ∧ '[' ≤ '~') ∧ (' ' ≤ ']' ∧ ']' ≤ '~') ∧ (' ' ≤ '/' ∧ '/' ≤ '~') := by
    decide
  simp only [Segment.markup, isPrintable_append, isPrintable_cons, isPrintable_nil, hmarks,
    List.cons_append]
  tauto

theorem Label.isPrintable_markup {l : Label} : IsPrintable l.markup ↔
    (∀ g ∈ l.segments, IsPrintable g.markup) ∧ IsPrintable l.after := by
  rw [Label.markup, isPrintable_append]
  simp only [IsPrintable, List.mem_flatMap]
  refine and_congr_left' ⟨fun h g hg c hc => h c ⟨g, hg, hc⟩, ?_⟩
  rintro h c ⟨g, hg, hc⟩
  exact h g hg c hc

variable {root : Label} {branches : List Label} {ls : List Line}

theorem treeBlock_lines_eq_ok : (treeBlock root branches).lines = .ok ls ↔ ∃ first more,
    linesOf (String.ofList root.markup) = .ok first ∧
    List.Forall₂ (fun l b => linesOf (String.ofList l.markup) = .ok b) branches more ∧
    treeLines first more = ls := by
  rw [treeBlock, Block.lines, bind_eq_ok]
  simp only [bind_eq_ok, mapM_eq_ok, List.forall₂_map_left_iff, pure, Except.pure, Except.ok.injEq,
    exists_and_left]

theorem length_plainTreeOf_le (h : (treeBlock root branches).lines = .ok ls) :
    (plainTreeOf root branches).length ≤ ls.length := by
  obtain ⟨first, more, hfirst, hmore, rfl⟩ := treeBlock_lines_eq_ok.mp h
  exact length_plainTree_le (linesOf_ne_nil hfirst)
    (forall_of_forall₂ hmore fun _ _ => linesOf_ne_nil) (by rw [List.length_map, hmore.length_eq])

theorem newline_notMem_treeBlock (h : (treeBlock root branches).lines = .ok ls) :
    ∀ l ∈ ls, '\n' ∉ l := by
  obtain ⟨first, more, hfirst, hmore, rfl⟩ := treeBlock_lines_eq_ok.mp h
  exact newline_notMem_treeLines (newline_notMem_linesOf hfirst)
    (forall_of_forall₂ hmore fun _ _ => newline_notMem_linesOf)

theorem treeBlock_lines_iff (hroot : root.IsProper) (hbranches : ∀ l ∈ branches, l.IsProper) :
    (treeBlock root branches).lines = .ok (plainTreeOf root branches) ↔
      root.IsPlain ∧ ∀ l ∈ branches, l.IsPlain := by
  have hsingles : (branches.map Label.text).map ([·]) = branches.map fun l => [l.text] := by
    simp [Function.comp_def]
  have hbranch : List.Forall₂ (fun l b => linesOf (String.ofList l.markup) = .ok b) branches
      (branches.map fun l => [l.text]) ↔ ∀ l ∈ branches, l.IsPlain := by
    rw [List.forall₂_map_right_iff, List.forall₂_same]
    exact forall₂_congr fun l hl =>
      linesOf_label_iff (hbranches l hl).styled (hbranches l hl).printable
  rw [← hbranch, ← linesOf_label_iff hroot.styled hroot.printable, treeBlock_lines_eq_ok]
  constructor
  · rintro ⟨first, more, hfirst, hmore, h⟩
    obtain ⟨rfl, rfl⟩ := eq_of_treeLines_eq_plainTree (linesOf_ne_nil hfirst)
      (forall_of_forall₂ hmore fun _ _ => linesOf_ne_nil)
      (by rw [List.length_map, hmore.length_eq]) h
    exact ⟨hfirst, hsingles ▸ hmore⟩
  · intro ⟨hfirst, hmore⟩
    exact ⟨_, _, hfirst, hmore, by rw [plainTreeOf, plainTree, hsingles]⟩

end LabelTrees

section Printed

def joined (ls : List Line) : String := String.ofList (ls.flatMap (· ++ ['\n']))

theorem joined_append (ls ls' : List Line) : joined (ls ++ ls') = joined ls ++ joined ls' := by
  simp [joined]

theorem joined_inj {ls ls' : List Line} (h : ∀ l ∈ ls, '\n' ∉ l) (h' : ∀ l ∈ ls', '\n' ∉ l)
    (heq : joined ls = joined ls') : ls = ls' := by
  have hsplit {ls : List Line} (h : ∀ l ∈ ls, '\n' ∉ l) :
      Text.splitOn '\n' (ls.flatMap (· ++ ['\n'])) = ls ++ [[]] := by
    induction ls with
    | nil => rfl
    | cons l ls ih =>
      obtain ⟨hl, hls⟩ := List.forall_mem_cons.mp h
      rw [List.flatMap_cons, List.append_assoc, List.singleton_append,
        Text.splitOn_append_cons hl, ih hls]
      rfl
  have hchars := String.ofList_injective heq
  have hlines := hsplit h
  rw [hchars, hsplit h'] at hlines
  exact (List.append_cancel_right hlines).symm

theorem print_eq_iff {bs : List Block} {out : String} : print bs = (out, none) ↔
    ∃ lss, List.Forall₂ (fun b ls => b.lines = .ok ls) bs lss ∧ out = joined lss.flatten := by
  induction bs generalizing out with
  | nil => simp [print, joined, eq_comm]
  | cons b r ih =>
    rw [print, Block.render]
    simp only [List.forall₂_cons_left_iff]
    cases hb : b.lines with
    | error e => simp [Except.map]
    | ok ls =>
      cases hr : print r with
      | mk more e =>
        constructor
        · intro h
          obtain ⟨rfl, rfl⟩ := Prod.mk.inj h
          obtain ⟨lss, hlss, rfl⟩ := ih.mp hr
          exact ⟨ls :: lss, ⟨ls, lss, rfl, hlss, rfl⟩, (joined_append ls lss.flatten).symm⟩
        · rintro ⟨_, ⟨ls', lss, hls, hlss, rfl⟩, rfl⟩
          obtain rfl := Except.ok.inj hls
          have hmore := ih.mpr ⟨lss, hlss, rfl⟩
          rw [hr] at hmore
          obtain ⟨rfl, rfl⟩ := Prod.mk.inj hmore
          rw [List.flatten_cons, joined_append]
          rfl

theorem print_concat_iff {bs : List Block} {b : Block} {out : String} :
    print (bs ++ [b]) = (out, none) ↔ ∃ lss ls,
      List.Forall₂ (fun b ls => b.lines = .ok ls) bs lss ∧ b.lines = .ok ls ∧
        out = joined (lss.flatten ++ ls) := by
  rw [print_eq_iff]
  constructor
  · rintro ⟨all, hall, rfl⟩
    obtain ⟨lss, last, hlss, hlast, rfl⟩ := forall₂_append_left_iff.mp hall
    obtain ⟨ls, _, hls, hnil, rfl⟩ := List.forall₂_cons_left_iff.mp hlast
    obtain rfl := List.forall₂_nil_left_iff.mp hnil
    exact ⟨lss, ls, hlss, hls, by simp⟩
  · rintro ⟨lss, ls, hlss, hls, rfl⟩
    exact ⟨lss ++ [ls], List.rel_append hlss (.cons hls .nil), by simp⟩

end Printed

end ChangeImpact.Console
