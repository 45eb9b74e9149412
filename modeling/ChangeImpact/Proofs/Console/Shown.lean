import ChangeImpact.Console.Show
import ChangeImpact.Proofs.Console.Printed
import ChangeImpact.Proofs.Text.Integer

/-!
# What is shown of an impact

The dependents of every changed file are printed as a tree whose labels hold the paths between the
tags of styles. The paths are printed as they are exactly if none of them holds what looks like a
tag, a backslash before a bracket, or the name of a pictograph, and none that is followed by a tag
ends with a backslash.
-/

namespace ChangeImpact.Console

open Decimal (ofInt ofNat)

section Expected

def branchTexts (r : Impact) (path : String) : List String :=
  (if (r.directOf path).isEmpty then ["no dependents"] else []) ++
    (r.directOf path).map (· ++ " (direct)") ++
    (r.indirectOf path).map fun d => d ++ " (depth " ++ ofInt (r.depthOf d) ++ ")"

def summary (r : Impact) : String :=
  ofNat r.totalAffected ++ " affected files (" ++ ofNat r.totalDirect ++ " direct, " ++
    ofNat r.totalIndirect ++ " indirect, max depth " ++ ofInt r.maxDepth ++ ")"

def shownTree (r : Impact) (path : String) : List Line :=
  plainTree path.toList ((branchTexts r path).map String.toList)

def shownLines (r : Impact) : List Line :=
  r.changed.flatMap (shownTree r) ++ [[], (summary r).toList]

/-- Nothing fails, and every path is printed as it is. -/
def ShowsPaths (r : Impact) : Prop := print (impact r) = (joined (shownLines r), none)

end Expected

section Labels

theorem readColor_of_noBrackets {word : String}
    (h : inBrackets? "rgb" (Text.lower word).toList = none) :
    readColor word = .ok (Text.lower word) ∨ readColor word = .error .unknown := by
  unfold readColor
  simp only [h]
  split_ifs
  · exact .inl rfl
  · exact .inr rfl

theorem Style.readWords_cons {s : Style} {word : String} {r : List String}
    (h : ["on", "not", "link"].contains (Text.lower word) = false) :
    Style.readWords s (word :: r) = match attribute? (Text.lower word) with
      | some a => Style.readWords (s.put a true) r
      | none => (readColor word).bind fun c => Style.readWords { s with color := some c } r := by
  simp only [List.contains_cons, List.contains_nil, Bool.or_false, Bool.or_eq_false_iff] at h
  obtain ⟨hon, hnot, hlink⟩ := h
  -- The words that follow are looked at only behind a keyword.
  cases r
  all_goals
    change (if Text.lower word == "on" then _ else if Text.lower word == "not" then _
      else if Text.lower word == "link" then _ else _) = _
    rw [hon, hnot, hlink]
    rfl

theorem exists_normalForm_boldCyan : ∃ form, Style.normalForm "bold cyan".toList = .ok form := by
  have hname : (Text.strip "bold cyan".toList == "none".toList) = false := by decide
  have hwords : (Text.words "bold cyan".toList).map String.ofList = ["bold", "cyan"] := by
    decide +kernel
  have hread : Style.readWords {} ["bold", "cyan"] = (readColor "cyan").bind fun c =>
      .ok { ({} : Style).put "bold" true with color := some c } := by
    have hbold : attribute? (Text.lower "bold") = some "bold" := by decide +kernel
    have hcyan : attribute? (Text.lower "cyan") = none := by decide +kernel
    rw [Style.readWords_cons (by decide +kernel), hbold]
    change Style.readWords _ ["cyan"] = _
    rw [Style.readWords_cons (by decide +kernel), hcyan]
    rfl
  rw [Style.normalForm, hname, hwords, hread]
  have hbrackets : inBrackets? "rgb" (Text.lower "cyan").toList = none := by decide +kernel
  rcases readColor_of_noBrackets hbrackets with h | h
  all_goals
    rw [h]
    exact ⟨_, rfl⟩

theorem isStyle_boldCyan : IsStyle "bold cyan".toList where
  inside := ⟨⟨'b', rfl, by decide⟩, by decide, by decide⟩
  noSlash := by decide
  noEquals := by decide
  noBackslash := by decide
  stripped := by decide
  read := exists_normalForm_boldCyan

theorem isStyle_bold : IsStyle "bold".toList where
  inside := ⟨⟨'b', rfl, by decide⟩, by decide, by decide⟩
  noSlash := by decide
  noEquals := by decide
  noBackslash := by decide
  stripped := by decide
  read := ⟨"bold", toOption_eq_some.mp (by decide +kernel)⟩

theorem isStyle_dim : IsStyle "dim".toList where
  inside := ⟨⟨'d', rfl, by decide⟩, by decide, by decide⟩
  noSlash := by decide
  noEquals := by decide
  noBackslash := by decide
  stripped := by decide
  read := ⟨"dim", toOption_eq_some.mp (by decide +kernel)⟩

def changedLabel (path : String) : Label := ⟨[⟨[], "bold cyan".toList, path.toList⟩], []⟩

def noneLabel : Label := ⟨[⟨[], "dim".toList, "no dependents".toList⟩], []⟩

def directLabel (path : String) : Label :=
  ⟨[⟨[], "bold".toList, path.toList⟩, ⟨[' '], "dim".toList, "(direct)".toList⟩], []⟩

def indirectLabel (depth : Int) (path : String) : Label :=
  ⟨[⟨path.toList ++ [' '], "dim".toList, ("(depth " ++ ofInt depth ++ ")").toList⟩], []⟩

def branchLabels (r : Impact) (path : String) : List Label :=
  (if (r.directOf path).isEmpty then [noneLabel] else []) ++ (r.directOf path).map directLabel ++
    (r.indirectOf path).map fun d => indirectLabel (r.depthOf d) d

def summaryLabel (r : Impact) : Label :=
  ⟨[⟨['\n'], "bold".toList, (ofNat r.totalAffected).toList⟩],
    (" affected files (" ++ ofNat r.totalDirect ++ " direct, " ++ ofNat r.totalIndirect ++
      " indirect, max depth " ++ ofInt r.maxDepth ++ ")").toList⟩

theorem toList_styled (style text : String) :
    (styled style text).toList = Segment.markup ⟨[], style.toList, text.toList⟩ := by
  simp [styled, Segment.markup]

theorem ofList_markup {l : Label} {s : String} (h : s.toList = l.markup) :
    String.ofList l.markup = s := by
  rw [← h, String.ofList_toList]

theorem dependents_eq (r : Impact) (path : String) :
    dependents r path = treeBlock (changedLabel path) (branchLabels r path) := by
  have hroot : String.ofList (changedLabel path).markup = styled "bold cyan" path :=
    ofList_markup (by simp [toList_styled, changedLabel, Label.markup])
  have hnone : String.ofList noneLabel.markup = dim "no dependents" :=
    ofList_markup (by simp only [dim, toList_styled]; rfl)
  have hdirect (d : String) :
      String.ofList (directLabel d).markup = bold d ++ " " ++ dim "(direct)" :=
    ofList_markup (by simp [bold, dim, toList_styled, directLabel, Label.markup, Segment.markup])
  have hindirect (depth : Int) (d : String) : String.ofList (indirectLabel depth d).markup =
      d ++ " " ++ dim ("(depth " ++ ofInt depth ++ ")") :=
    ofList_markup (by simp [dim, toList_styled, indirectLabel, Label.markup, Segment.markup])
  rw [dependents, treeBlock, branchLabels, hroot, List.map_append, List.map_append, List.map_map,
    List.map_map, apply_ite (List.map _)]
  simp only [List.map_cons, List.map_nil, Function.comp_def, hnone, hdirect, hindirect]

theorem text_branchLabels (r : Impact) (path : String) :
    (branchLabels r path).map Label.text = (branchTexts r path).map String.toList := by
  have hnone : noneLabel.text = "no dependents".toList := rfl
  have hdirect (d : String) : (directLabel d).text = (d ++ " (direct)").toList := by
    simp [directLabel, Label.text, Segment.text]
  have hindirect (depth : Int) (d : String) :
      (indirectLabel depth d).text = (d ++ " (depth " ++ ofInt depth ++ ")").toList := by
    simp [indirectLabel, Label.text, Segment.text]
  rw [branchLabels, branchTexts, List.map_append, List.map_append, List.map_append,
    List.map_append, List.map_map, List.map_map, List.map_map, List.map_map,
    apply_ite (List.map _), apply_ite (List.map _)]
  simp only [List.map_cons, List.map_nil, Function.comp_def, hnone, hdirect, hindirect]

theorem plainTreeOf_eq (r : Impact) (path : String) :
    plainTreeOf (changedLabel path) (branchLabels r path) = shownTree r path := by
  rw [plainTreeOf, text_branchLabels, shownTree]
  simp [changedLabel, Label.text, Segment.text]

end Labels

section Figures

theorem of_mem_ofInt {n : Int} {c : Char} (h : c ∈ (ofInt n).toList) :
    (' ' ≤ c ∧ c ≤ '~') ∧ isOrdinary c = true := by
  have hdigit : ∀ d < 10, (' ' ≤ Nat.digitChar d ∧ Nat.digitChar d ≤ '~') ∧
      isOrdinary (Nat.digitChar d) = true := by decide
  have hdigits {n : Nat} (h : c ∈ Decimal.digits n) :
      (' ' ≤ c ∧ c ≤ '~') ∧ isOrdinary c = true := by
    obtain ⟨d, hd, rfl⟩ := Text.exists_digitChar n c h
    exact hdigit d hd
  cases n with
  | ofNat n => exact hdigits (by simpa [ofInt, ofNat] using h)
  | negSucc n =>
    rw [ofInt, String.toList_ofList, List.mem_cons] at h
    rcases h with rfl | h
    · decide
    · exact hdigits h

theorem isPrintable_ofInt (n : Int) : IsPrintable (ofInt n).toList :=
  fun _ hc => (of_mem_ofInt hc).1

theorem ordinary_ofInt (n : Int) : (ofInt n).toList.all isOrdinary = true :=
  List.all_eq_true.mpr fun _ hc => (of_mem_ofInt hc).2

theorem isPrintable_ofNat (n : Nat) : IsPrintable (ofNat n).toList := isPrintable_ofInt (.ofNat n)

theorem ordinary_ofNat (n : Nat) : (ofNat n).toList.all isOrdinary = true :=
  ordinary_ofInt (.ofNat n)

end Figures

section Proper

theorem isProper_changedLabel {path : String} (h : IsPrintable path.toList) :
    (changedLabel path).IsProper where
  styled := List.forall_mem_singleton.mpr isStyle_boldCyan
  printable := by
    have hstyle : IsPrintable "bold cyan".toList := by decide
    exact Label.isPrintable_markup.mpr ⟨List.forall_mem_singleton.mpr
      (Segment.isPrintable_markup.mpr ⟨isPrintable_nil, hstyle, h⟩), isPrintable_nil⟩

theorem isProper_noneLabel : noneLabel.IsProper where
  styled := List.forall_mem_singleton.mpr isStyle_dim
  printable := by decide

theorem isProper_directLabel {path : String} (h : IsPrintable path.toList) :
    (directLabel path).IsProper where
  styled := List.forall_mem_cons.mpr ⟨isStyle_bold, List.forall_mem_singleton.mpr isStyle_dim⟩
  printable := by
    have hstyle : IsPrintable "bold".toList := by decide
    exact Label.isPrintable_markup.mpr ⟨List.forall_mem_cons.mpr
      ⟨Segment.isPrintable_markup.mpr ⟨isPrintable_nil, hstyle, h⟩,
        List.forall_mem_singleton.mpr (by decide)⟩, isPrintable_nil⟩

theorem isProper_indirectLabel (depth : Int) {path : String} (h : IsPrintable path.toList) :
    (indirectLabel depth path).IsProper where
  styled := List.forall_mem_singleton.mpr isStyle_dim
  printable := by
    have hbefore : IsPrintable (path.toList ++ [' ']) := isPrintable_append.mpr ⟨h, by decide⟩
    have hstyle : IsPrintable "dim".toList := by decide
    have hinside : IsPrintable ("(depth " ++ ofInt depth ++ ")").toList := by
      rw [String.toList_append, String.toList_append]
      exact isPrintable_append.mpr
        ⟨isPrintable_append.mpr ⟨by decide, isPrintable_ofInt depth⟩, by decide⟩
    exact Label.isPrintable_markup.mpr ⟨List.forall_mem_singleton.mpr
      (Segment.isPrintable_markup.mpr ⟨hbefore, hstyle, hinside⟩), isPrintable_nil⟩

end Proper

section PlainLabels

theorem isPlainBeforeTag_nil : IsPlainBeforeTag [] := isPlainBeforeTag_of_ordinary rfl

theorem changedLabel_isPlain {path : String} :
    (changedLabel path).IsPlain ↔ IsPlainBeforeTag path.toList := by
  simp [changedLabel, Label.isPlain_iff, Segment.isPlain_iff, isPlainBeforeTag_nil,
    isPlainBeforeTag_nil.toIsPlain]

theorem noneLabel_isPlain : noneLabel.IsPlain := by
  have htext : IsPlainBeforeTag "no dependents".toList := isPlainBeforeTag_of_ordinary (by decide)
  simp only [noneLabel, Label.isPlain_iff, Segment.isPlain_iff, List.forall_mem_singleton]
  exact ⟨⟨isPlainBeforeTag_nil, htext⟩, isPlainBeforeTag_nil.toIsPlain⟩

theorem directLabel_isPlain {path : String} :
    (directLabel path).IsPlain ↔ IsPlainBeforeTag path.toList := by
  have hblank : IsPlainBeforeTag [' '] := isPlainBeforeTag_of_ordinary (by decide)
  have htext : IsPlainBeforeTag "(direct)".toList := isPlainBeforeTag_of_ordinary (by decide)
  simp only [directLabel, Label.isPlain_iff, Segment.isPlain_iff, List.forall_mem_cons,
    isPlainBeforeTag_nil, isPlainBeforeTag_nil.toIsPlain, hblank, htext, true_and, and_true]
  exact and_iff_left (List.forall_mem_nil _)

theorem indirectLabel_isPlain {depth : Int} {path : String} :
    (indirectLabel depth path).IsPlain ↔ IsPlain path.toList := by
  have htext : IsPlainBeforeTag ("(depth " ++ ofInt depth ++ ")").toList :=
    isPlainBeforeTag_of_ordinary (by simp [ordinary_ofInt]; decide)
  simp only [indirectLabel, Label.isPlain_iff, Segment.isPlain_iff, List.forall_mem_singleton,
    isPlainBeforeTag_append_blank, isPlainBeforeTag_nil.toIsPlain, htext, and_true]

theorem branchLabels_isPlain {r : Impact} {path : String} :
    (∀ l ∈ branchLabels r path, l.IsPlain) ↔
      (∀ d ∈ r.directOf path, IsPlainBeforeTag d.toList) ∧
        ∀ d ∈ r.indirectOf path, IsPlain d.toList := by
  have hnone : ∀ l ∈ if (r.directOf path).isEmpty then [noneLabel] else [], l.IsPlain := by
    split
    · exact List.forall_mem_singleton.mpr noneLabel_isPlain
    · exact List.forall_mem_nil _
  simp only [branchLabels, List.forall_mem_append, List.forall_mem_map, directLabel_isPlain,
    indirectLabel_isPlain]
  exact ⟨fun h => ⟨h.1.2, h.2⟩, fun h => ⟨⟨hnone, h.1⟩, h.2⟩⟩

end PlainLabels

section Summary

theorem summary_eq (r : Impact) : '\n' :: (summary r).toList = (summaryLabel r).text := by
  simp [summary, summaryLabel, Label.text, Segment.text]

theorem summaryLabel_isStyled (r : Impact) : (summaryLabel r).IsStyled :=
  List.forall_mem_singleton.mpr isStyle_bold

theorem summaryLabel_isPlain (r : Impact) : (summaryLabel r).IsPlain where
  segments := List.forall_mem_singleton.mpr
    ⟨isPlainBeforeTag_of_ordinary rfl, isPlainBeforeTag_of_ordinary (ordinary_ofNat _)⟩
  after := by
    refine (isPlainBeforeTag_of_ordinary ?_).toIsPlain
    simp only [summaryLabel, String.toList_append, List.all_append, ordinary_ofNat, ordinary_ofInt,
      Bool.and_true]
    decide

theorem isPrintable_summary (r : Impact) : IsPrintable (summary r).toList := by
  simp only [summary, String.toList_append, isPrintable_append, isPrintable_ofNat,
    isPrintable_ofInt, and_true, true_and]
  decide

theorem summary_lines (r : Impact) :
    (Block.text ("\n" ++ bold (ofNat r.totalAffected) ++ " affected files (" ++
      ofNat r.totalDirect ++ " direct, " ++ ofNat r.totalIndirect ++ " indirect, max depth " ++
      ofInt r.maxDepth ++ ")")).lines = .ok [[], (summary r).toList] := by
  have hmarkup : ("\n" ++ bold (ofNat r.totalAffected) ++ " affected files (" ++
      ofNat r.totalDirect ++ " direct, " ++ ofNat r.totalIndirect ++ " indirect, max depth " ++
      ofInt r.maxDepth ++ ")").toList = (summaryLabel r).markup := by
    simp [bold, toList_styled, summaryLabel, Label.markup, Segment.markup]
  have hsummary := isPrintable_summary r
  refine linesOf_eq_ok.mpr ⟨'\n' :: (summary r).toList, ?_, ?_⟩
  · rw [hmarkup, summary_eq]
    exact Label.textOf_plain (summaryLabel_isStyled r) (summaryLabel_isPlain r)
  · have hkept : ('\n' :: (summary r).toList).filter (!isStripped ·) =
        [] ++ '\n' :: (summary r).toList := by
      rw [List.filter_cons_of_pos (by decide), hsummary.filter_stripped, List.nil_append]
    rw [hkept, Text.splitOn_append_cons (List.not_mem_nil),
      Text.splitOn_of_notMem (hsummary.notMem (by decide))]
    simp [expandTabs_of_noTab, hsummary.notMem (show '\t' < ' ' by decide)]

end Summary

section Impacts

structure HasPrintablePaths (r : Impact) : Prop where
  changed : ∀ p ∈ r.changed, IsPrintable p.toList
  direct : ∀ p ∈ r.changed, ∀ d ∈ r.directOf p, IsPrintable d.toList
  indirect : ∀ p ∈ r.changed, ∀ d ∈ r.indirectOf p, IsPrintable d.toList

/-- Every path is plain where it stands in its label. -/
structure HasPlainPaths (r : Impact) : Prop where
  changed : ∀ p ∈ r.changed, IsPlainBeforeTag p.toList
  direct : ∀ p ∈ r.changed, ∀ d ∈ r.directOf p, IsPlainBeforeTag d.toList
  indirect : ∀ p ∈ r.changed, ∀ d ∈ r.indirectOf p, IsPlain d.toList

variable {r : Impact}

theorem isProper_branchLabels (h : HasPrintablePaths r) {p : String} (hp : p ∈ r.changed) :
    ∀ l ∈ branchLabels r p, l.IsProper := by
  simp only [branchLabels, List.forall_mem_append, List.forall_mem_map]
  refine ⟨⟨?_, fun d hd => isProper_directLabel (h.direct p hp d hd)⟩,
    fun d hd => isProper_indirectLabel _ (h.indirect p hp d hd)⟩
  split
  · exact List.forall_mem_singleton.mpr isProper_noneLabel
  · exact List.forall_mem_nil _

theorem dependents_lines_iff (h : HasPrintablePaths r) {p : String} (hp : p ∈ r.changed) :
    (dependents r p).lines = .ok (shownTree r p) ↔
      IsPlainBeforeTag p.toList ∧ (∀ d ∈ r.directOf p, IsPlainBeforeTag d.toList) ∧
        ∀ d ∈ r.indirectOf p, IsPlain d.toList := by
  rw [dependents_eq, ← plainTreeOf_eq,
    treeBlock_lines_iff (isProper_changedLabel (h.changed p hp)) (isProper_branchLabels h hp),
    changedLabel_isPlain, branchLabels_isPlain]

theorem hasPlainPaths_iff (h : HasPrintablePaths r) : HasPlainPaths r ↔
    ∀ p ∈ r.changed, (dependents r p).lines = .ok (shownTree r p) := by
  constructor
  · intro hplain p hp
    exact (dependents_lines_iff h hp).mpr
      ⟨hplain.changed p hp, hplain.direct p hp, hplain.indirect p hp⟩
  · intro hlines
    have hp p hp := (dependents_lines_iff h hp).mp (hlines p hp)
    exact ⟨fun p h => (hp p h).1, fun p h => (hp p h).2.1, fun p h => (hp p h).2.2⟩

theorem newline_notMem_shownLines (h : HasPrintablePaths r) : ∀ l ∈ shownLines r, '\n' ∉ l := by
  have hnewline {s : List Char} (hs : IsPrintable s) : '\n' ∉ s := hs.notMem (by decide)
  rw [shownLines, List.forall_mem_append]
  constructor
  · rw [List.forall_mem_flatMap]
    intro p hp
    refine newline_notMem_treeLines
      (List.forall_mem_singleton.mpr (hnewline (h.changed p hp))) (List.forall_mem_map.mpr ?_)
    rw [← text_branchLabels, List.forall_mem_map]
    intro l hl
    have htext : IsPrintable l.text := fun c hc =>
      (isProper_branchLabels h hp l hl).printable c (l.text_subset hc)
    exact List.forall_mem_singleton.mpr (hnewline htext)
  · exact List.forall_mem_cons.mpr
      ⟨List.not_mem_nil, List.forall_mem_singleton.mpr (hnewline (isPrintable_summary r))⟩

theorem showsPaths_of_hasPlainPaths (h : HasPrintablePaths r) (hplain : HasPlainPaths r) :
    ShowsPaths r := by
  have hlines := (hasPlainPaths_iff h).mp hplain
  rw [ShowsPaths, impact, print_concat_iff]
  refine ⟨r.changed.map (shownTree r), _, ?_, summary_lines r, ?_⟩
  · rwa [List.forall₂_map_left_iff, List.forall₂_map_right_iff, List.forall₂_same]
  · rw [shownLines, List.flatMap]

/-- The printed text has as many lines as there are labels, so each label is on one line. -/
theorem hasPlainPaths_of_showsPaths (h : HasPrintablePaths r) (hshows : ShowsPaths r) :
    HasPlainPaths r := by
  rw [ShowsPaths, impact, print_concat_iff] at hshows
  obtain ⟨lss, last, hlss, hlast, hjoined⟩ := hshows
  rw [summary_lines, Except.ok.injEq] at hlast
  obtain rfl := hlast
  rw [List.forall₂_map_left_iff] at hlss
  have hnewline : ∀ ls ∈ lss, ∀ l ∈ ls, '\n' ∉ l := by
    refine forall_of_forall₂ hlss fun p ls hls => ?_
    rw [dependents_eq] at hls
    exact newline_notMem_treeBlock hls
  have hle : ∀ p ∈ r.changed, ∀ ls, (dependents r p).lines = .ok ls →
      (shownTree r p).length ≤ ls.length := by
    intro p _ ls hls
    rw [dependents_eq] at hls
    rw [← plainTreeOf_eq]
    exact length_plainTreeOf_le hls
  have hall : ∀ l ∈ lss.flatten ++ [[], (summary r).toList], '\n' ∉ l := by
    rw [List.forall_mem_append]
    refine ⟨?_, fun l hl => newline_notMem_shownLines h l (List.mem_append_right _ hl)⟩
    intro l hl
    obtain ⟨ls, hls, hl⟩ := List.mem_flatten.mp hl
    exact hnewline ls hls l hl
  have hlines := joined_inj (newline_notMem_shownLines h) hall hjoined
  obtain rfl := eq_map_of_flatten_eq hlss hle (List.append_cancel_right hlines).symm
  rwa [List.forall₂_map_right_iff, List.forall₂_same, ← hasPlainPaths_iff h] at hlss

/-- Of an impact with printable paths, every path is printed as it is exactly if all are plain. -/
theorem showsPaths_iff (h : HasPrintablePaths r) : ShowsPaths r ↔ HasPlainPaths r :=
  ⟨hasPlainPaths_of_showsPaths h, showsPaths_of_hasPlainPaths h⟩

def markedImpact : Impact where
  changed := ["lib/[A].ts"]
  direct := [("lib/[A].ts", ["x:y.ts"])]
  indirect := [("lib/[A].ts", ["z\\"])]
  depths := [("z\\", 2)]
  allAffected := ["x:y.ts", "z\\"]

theorem showsPaths_markedImpact : HasPrintablePaths markedImpact ∧ ShowsPaths markedImpact := by
  have hprintable : HasPrintablePaths markedImpact := ⟨by decide, by decide, by decide⟩
  exact ⟨hprintable, (showsPaths_iff hprintable).mpr ⟨by decide, by decide, by decide⟩⟩

def routeImpact : Impact where
  changed := ["app/[id]/page.tsx"]

theorem not_showsPaths_routeImpact :
    (∀ p ∈ routeImpact.changed, p ≠ "") ∧ HasPrintablePaths routeImpact ∧
      ¬ ShowsPaths routeImpact := by
  have hprintable : HasPrintablePaths routeImpact := ⟨by decide, by decide, by decide⟩
  have hplain : ¬ IsPlainBeforeTag "app/[id]/page.tsx".toList := by decide
  refine ⟨by decide, hprintable, fun hshows => hplain ?_⟩
  exact (hasPlainPaths_of_showsPaths hprintable hshows).changed _ List.mem_cons_self

end Impacts

end ChangeImpact.Console
