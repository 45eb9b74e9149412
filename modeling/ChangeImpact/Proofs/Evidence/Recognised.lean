import ChangeImpact.Proofs.Evidence.Convention
import Mathlib.Data.List.DropRight

/-!
# Tests by convention are taken for tests

A name is taken for that of a test by what it holds: a mark and an ending behind it, or something
between a mark in front and an ending. The names that conventions make of a stem are all of this
kind, whatever marks and dots the stem holds, as long as it has no line end. So what is listed
beside a file is taken for a test of its language, and is never the file itself.
-/

namespace ChangeImpact.Evidence

open ChangeImpact.Path

section Recognised

variable {name before after : List Char} {start ending : String}

theorem hasDottedMark_append (h : (before ++ after).rtakeWhile (· != '.') = after) :
    hasDottedMark (before ++ after) = true ↔
      after ≠ [] ∧ ∃ mark ∈ [".test.", ".spec."], mark.toList <:+ before := by
  have hbefore : (before ++ after).take ((before ++ after).length - after.length) = before := by
    rw [List.length_append, Nat.add_sub_cancel, List.take_left]
  rw [List.rtakeWhile] at h
  simp only [hasDottedMark, h, hbefore, Bool.and_eq_true, Bool.not_eq_true', List.any_eq_true,
    List.isEmpty_eq_false_iff, List.isSuffixOf_iff_suffix]

theorem hasDottedMark_iff : hasDottedMark name = true ↔
    ∃ before after, ∃ mark ∈ [".test.", ".spec."], after ≠ [] ∧ '.' ∉ after ∧
      name = before ++ mark.toList ++ after := by
  constructor
  · intro h
    have hwhole := List.rdropWhile_append_rtakeWhile (p := (· != '.')) (l := name)
    have hafter : '.' ∉ name.rtakeWhile (· != '.') := fun hmem =>
      absurd (List.mem_rtakeWhile_imp hmem) (by decide)
    rw [← hwhole, hasDottedMark_append (by rw [hwhole])] at h
    obtain ⟨hne, mark, hmark, before, hbefore⟩ := h
    exact ⟨before, _, mark, hmark, hne, hafter, by rw [hbefore, hwhole]⟩
  · intro h
    obtain ⟨before, after, mark, hmark, hne, hafter, rfl⟩ := h
    have hdot : ∀ mark ∈ [".test.", ".spec."], mark.toList.getLast? = some '.' := by decide
    have hlast : (before ++ mark.toList).getLast? = some '.' := by
      rw [List.getLast?_append, hdot mark hmark, Option.some_or]
    rw [hasDottedMark_append (rtakeWhile_ne_append hlast hafter)]
    exact ⟨hne, mark, hmark, List.suffix_append _ _⟩

theorem any_withoutLineEnd {p : List Char → Bool} : [name, withoutLineEnd name].any p = true ↔
    ∃ text, (name = text ∨ name = text ++ ['\n']) ∧ p text = true := by
  rw [List.any_cons, List.any_cons, List.any_nil, Bool.or_false, Bool.or_eq_true]
  constructor
  · intro h
    obtain h | h := h
    · exact ⟨name, .inl rfl, h⟩
    · rw [withoutLineEnd] at h
      split at h
      next hend =>
        exact ⟨_, .inr (List.dropLast_append_getLast? _ (eq_of_beq hend)).symm, h⟩
      next => exact ⟨name, .inl rfl, h⟩
  · intro h
    obtain ⟨text, rfl | rfl, h⟩ := h
    · exact .inl h
    · refine .inr ?_
      rwa [withoutLineEnd, if_pos (by simp), List.dropLast_concat]

theorem isBetween_iff : isBetween start ending name = true ↔
    ∃ inner, inner ≠ [] ∧ '\n' ∉ inner ++ ending.toList ∧
      (name = start.toList ++ (inner ++ ending.toList) ∨
        name = start.toList ++ (inner ++ ending.toList) ++ ['\n']) := by
  rw [isBetween, any_withoutLineEnd]
  simp only [Bool.and_eq_true, List.isPrefixOf_iff_prefix, List.isSuffixOf_iff_suffix,
    decide_eq_true_eq, List.all_eq_true, bne_iff_ne, ← String.length_toList]
  constructor
  · intro h
    obtain ⟨text, hname, ⟨⟨⟨rest, rfl⟩, hsuffix⟩, hlong⟩, hline⟩ := h
    rw [List.drop_left] at hline
    rw [List.length_append, Nat.add_lt_add_iff_left] at hlong
    obtain ⟨inner, rfl⟩ := List.suffix_of_suffix_length_le hsuffix
      (List.suffix_append start.toList rest) hlong.le
    refine ⟨inner, ?_, fun hmem => hline _ hmem rfl, hname⟩
    intro hnil
    simp [hnil] at hlong
  · intro h
    obtain ⟨inner, hne, hline, hname⟩ := h
    refine ⟨_, hname, ⟨⟨List.prefix_append _ _, ?_⟩, ?_⟩, ?_⟩
    · exact (List.suffix_append inner _).trans (List.suffix_append _ _)
    · have hpos := List.length_pos_iff.mpr hne
      simp only [List.length_append]
      omega
    · rw [List.drop_left]
      exact fun c hc => ne_of_mem_of_not_mem hc hline

theorem hasEnding_iff : hasEnding ending name = true ↔
    ∃ before c, c ≠ '\n' ∧ (name = before ++ [c] ++ ending.toList ∨
      name = before ++ [c] ++ ending.toList ++ ['\n']) := by
  rw [hasEnding, any_withoutLineEnd]
  simp only [Bool.and_eq_true, List.isSuffixOf_iff_suffix, ← String.length_toList]
  constructor
  · intro h
    obtain ⟨text, hname, ⟨before, rfl⟩, h⟩ := h
    rw [List.length_append, Nat.add_sub_cancel, List.take_left] at h
    split at h
    next c hlast =>
      obtain ⟨r, rfl⟩ := List.getLast?_eq_some_iff.mp hlast
      exact ⟨r, c, bne_iff_ne.mp h, hname⟩
    next => exact absurd h Bool.false_ne_true
  · intro h
    obtain ⟨before, c, hc, hname⟩ := h
    refine ⟨_, hname, List.suffix_append _ _, ?_⟩
    rw [List.length_append, Nat.add_sub_cancel, List.take_left, List.getLast?_concat]
    exact bne_iff_ne.mpr hc

def NamesTest (name : List Char) : Prop :=
  hasDottedMark name = true ∨ isBetween "test_" ".py" name = true ∨
    ∃ ending ∈ ["_test.py", "_test.go"], hasEnding ending name = true

theorem looksLikeTest_iff {path : String} : looksLikeTest path = true ↔
    "__tests__" ∈ (ofString path).parent.parts ∨ NamesTest (ofString path).name.toList := by
  simp [looksLikeTest, NamesTest, parent, or_assoc]

end Recognised

/-- A test beside a file: it is taken for a test, it is in the language of the file, and it stands
in the folder of the file or in a folder for tests there. -/
structure StandsBeside (path test : String) : Prop where
  recognised : looksLikeTest test = true
  language : Language.ofPath? test = Language.ofPath? path
  folder : (ofString test).parent = (ofString path).parent ∨
    ∃ f ∈ testFolders, (ofString test).parent = (ofString path).parent.child f

section Beside

variable {path stem suffix base ending : String} {l : Language} {folder : Option String}

/-- Only the folder `__tests__` makes a test of a file that is named like the one it tests. -/
theorem Convention.namesTest (hstem : stem ≠ "") (hline : '\n' ∉ stem.toList)
    (hending : IsEnding ending) (h : Convention stem suffix (some l) folder base ending) :
    folder = some "__tests__" ∨ NamesTest (base ++ ending).toList := by
  have hmarks : ∀ m ∈ [".test", ".spec"], m ++ "." ∈ [".test.", ".spec."] := by decide
  rw [ne_eq, ← String.toList_eq_nil_iff] at hstem
  obtain ⟨before, c, hlast⟩ := (List.eq_nil_or_concat' stem.toList).resolve_left hstem
  have hc : c ≠ '\n' := by
    intro heq
    simp [hlast, heq] at hline
  cases h with
  | @script _ mark _ hmarked =>
    obtain ⟨after, hafter, hdot, hlist⟩ := hending.exists_toList
    refine .inr (.inl (hasDottedMark_iff.mpr
      ⟨stem.toList, after, mark ++ ".", hmarks mark hmarked, hafter, hdot, ?_⟩))
    simp [hlist]
  | scriptAlike => exact .inl rfl
  | pythonFront =>
    refine .inr (.inr (.inl (isBetween_iff.mpr ⟨stem.toList, hstem, ?_, .inl ?_⟩)))
    · simpa using hline
    · simp
  | pythonBehind =>
    refine .inr (.inr (.inr ⟨"_test.py", by decide, hasEnding_iff.mpr ⟨before, c, hc, .inl ?_⟩⟩))
    simp [hlast]
  | go =>
    refine .inr (.inr (.inr ⟨"_test.go", by decide, hasEnding_iff.mpr ⟨before, c, hc, .inl ?_⟩⟩))
    simp [hlast]

theorem notMem_stem_of_notMem_name {c : Char} (h : c ∉ (ofString path).name.toList) :
    c ∉ (ofString path).stem.toList := by
  rw [← cutName_append_snd (ofString path).name, String.toList_append, List.mem_append, not_or] at h
  exact h.1

section Placed

variable (hlanguage : Language.ofPath? path = some l)
  (h : Convention (ofString path).stem (ofString path).suffix (Language.ofPath? path) folder base
    ending)

include hlanguage h

theorem Convention.cutName_eq : cutName (base ++ ending) = (base, ending) := by
  have hstem : (ofString path).stem ≠ "" := fst_cutName_ne (name_ne_empty hlanguage)
  rw [hlanguage] at h
  exact cutName_append (h.isTestStem.ne_empty hstem) (h.ending_spec hlanguage).1

theorem standsBeside_of_convention (hline : '\n' ∉ (ofString path).name.toList) :
    StandsBeside path (placeIn (ofString path).parent folder (base ++ ending)).text := by
  have hname := name_ne_empty hlanguage
  have hread := h.name_text hname
  have hparent := h.parent_text hname
  have hcut := h.cutName_eq hlanguage
  rw [hlanguage] at h
  obtain ⟨hending, -, hknown⟩ := h.ending_spec hlanguage
  refine ⟨?_, ?_, ?_⟩
  · have hstemline := notMem_stem_of_notMem_name hline
    rw [looksLikeTest_iff, hread, hparent]
    refine (h.namesTest (fst_cutName_ne hname) hstemline hending).imp_left ?_
    intro hfolder
    rw [hfolder, Option.elim_some, child_of_isPart _ (by decide)]
    exact List.mem_append_right _ (List.mem_singleton_self _)
  · rw [Language.ofPath?, Path.suffix, hread, hcut, hknown, hlanguage]
  · rw [hparent]
    cases folder with
    | none => exact .inl rfl
    | some f => exact .inr ⟨f, h.mem_testFolders f rfl, rfl⟩

/-- A test in the folder of the file has another stem, and one below has another folder. -/
theorem ne_of_convention :
    path ≠ (placeIn (ofString path).parent folder (base ++ ending)).text := by
  have hname := name_ne_empty hlanguage
  intro heq
  cases folder with
  | none =>
    have hread := h.name_text hname
    rw [← heq] at hread
    apply h.base_ne
    rw [Path.stem, hread, h.cutName_eq hlanguage]
  | some f =>
    have hparent := h.parent_text hname
    rw [← heq, Option.elim_some,
      child_of_isPart _ (isPart_testFolders f (h.mem_testFolders f rfl))] at hparent
    have hlength := congrArg (fun p : Path => p.parts.length) hparent
    simp at hlength

end Placed

/-- Conventions put at least one test beside each file in a known language. Nothing is listed twice,
the file itself is not listed, and whatever is listed is a test in the file's language that stands
beside it. -/
theorem conventionalTests_recognised (hlanguage : (Language.ofPath? path).isSome = true)
    (hline : '\n' ∉ (ofString path).name.toList) :
    conventionalTests path ≠ [] ∧ (conventionalTests path).Nodup ∧
      path ∉ conventionalTests path ∧ ∀ test ∈ conventionalTests path, StandsBeside path test := by
  obtain ⟨l, hl⟩ := Option.isSome_iff_exists.mp hlanguage
  refine ⟨conventionalTests_ne_nil path, nodup_conventionalTests path, ?_, ?_⟩
  · intro hmem
    obtain ⟨folder, base, ending, hconvention, heq⟩ := mem_conventionalTests_iff.mp hmem
    exact ne_of_convention hl hconvention heq
  · intro test htest
    obtain ⟨folder, base, ending, hconvention, rfl⟩ := mem_conventionalTests_iff.mp htest
    exact standsBeside_of_convention hl hconvention hline

theorem conventionalTests_recognised_utility :
    (Language.ofPath? "pkg/test_Util_test.v2.PYI").isSome = true ∧
      '\n' ∉ (ofString "pkg/test_Util_test.v2.PYI").name.toList ∧
      conventionalTests "pkg/test_Util_test.v2.PYI" ≠ [] ∧
      (conventionalTests "pkg/test_Util_test.v2.PYI").Nodup ∧
      "pkg/test_Util_test.v2.PYI" ∉ conventionalTests "pkg/test_Util_test.v2.PYI" ∧
      ∀ test ∈ conventionalTests "pkg/test_Util_test.v2.PYI",
        StandsBeside "pkg/test_Util_test.v2.PYI" test := by
  have hlanguage : (Language.ofPath? "pkg/test_Util_test.v2.PYI").isSome = true := by
    decide +kernel
  have hline : '\n' ∉ (ofString "pkg/test_Util_test.v2.PYI").name.toList := by decide +kernel
  exact ⟨hlanguage, hline, conventionalTests_recognised hlanguage hline⟩

/-- A line end in the stem hides the test. -/
example : "test_a\nb.py" ∈ conventionalTests "a\nb.py" ∧ looksLikeTest "test_a\nb.py" = false := by
  decide +kernel

end Beside

end ChangeImpact.Evidence
