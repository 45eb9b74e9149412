import ChangeImpact.Proofs.Evidence.Extended
import ChangeImpact.Proofs.Evidence.Placed
import ChangeImpact.Proofs.Path.Named
import ChangeImpact.Proofs.Text.Strip
import Mathlib.Data.List.Infix

/-!
# Tests that stand by convention

A convention makes the name of a test from that of the file, and the name of the test is read back
by taking a mark away again. Only one mark is taken away, and one behind the stem goes before the
one in front. So a stem that is itself marked may not be found again, and then the test has no
evidence of the file but what its text gives. `Obscures` tells for which names that is so.
-/

namespace ChangeImpact

open Evidence ChangeImpact.Path

namespace Text

def IsAscii (s : String) : Prop := s.toList.all (·.toNat < 128) = true

instance (s : String) : Decidable (IsAscii s) := inferInstanceAs (Decidable (_ = true))

variable {s t : String}

theorem isAscii_append : IsAscii (s ++ t) ↔ IsAscii s ∧ IsAscii t := by
  rw [IsAscii, String.toList_append, List.all_append, Bool.and_eq_true]
  rfl

theorem toList_lower (h : IsAscii s) : (lower s).toList = s.toList.map Char.toLower := by
  rw [IsAscii] at h
  rw [lower, if_pos h]
  exact String.toList_map

theorem lower_append (hs : IsAscii s) (ht : IsAscii t) : lower (s ++ t) = lower s ++ lower t := by
  rw [← String.toList_inj, toList_lower (isAscii_append.mpr ⟨hs, ht⟩), String.toList_append,
    String.toList_append, List.map_append, toList_lower hs, toList_lower ht]

theorem lower_ne_empty (h : IsAscii s) (hne : s ≠ "") : lower s ≠ "" := by
  rw [ne_eq, ← String.toList_eq_nil_iff] at hne ⊢
  rwa [toList_lower h, List.map_eq_nil_iff]

end Text

namespace Evidence

def marks : List String := [".test", ".spec", "_test"]

def frontMark : String := "test_"

def unmarked (base : List Char) : List Char :=
  match marks.find? fun m => m.toList.isSuffixOf base with
  | some m => base.take (base.length - m.length)
  | none => if frontMark.toList.isPrefixOf base then base.drop 5 else base

theorem testedStem_eq (name : String) :
    testedStem name = String.ofList (unmarked (bareStem name).toList) := by
  unfold testedStem unmarked marks
  dsimp only
  generalize (bareStem name).toList = base
  cases [".test", ".spec", "_test"].find? fun m => m.toList.isSuffixOf base with
  | some m => rfl
  | none => exact (apply_ite String.ofList (frontMark.toList.isPrefixOf base = true) _ _).symm

theorem length_mark : ∀ m ∈ marks, m.toList.length = 5 := by decide

theorem length_frontMark : frontMark.toList.length = 5 := by decide

section Unmarked

variable {m : String} {s t : List Char}

theorem unmarked_cases (s : List Char) : (∃ m ∈ marks, s = unmarked s ++ m.toList) ∨
    (∀ m ∈ marks, ¬ m.toList <:+ s) ∧
      (s = frontMark.toList ++ unmarked s ∨ ¬ frontMark.toList <+: s ∧ unmarked s = s) := by
  cases hfind : marks.find? fun m => m.toList.isSuffixOf s with
  | some m =>
    have hsuffix := List.find?_some (p := fun m : String => m.toList.isSuffixOf s) hfind
    obtain ⟨t, rfl⟩ := List.isSuffixOf_iff_suffix.mp hsuffix
    have hcut : (t ++ m.toList).length - m.length = t.length := by
      rw [List.length_append, ← String.length_toList, Nat.add_sub_cancel]
    refine .inl ⟨m, List.mem_of_find?_eq_some hfind, ?_⟩
    simp only [unmarked, hfind, hcut, List.take_left]
  | none =>
    refine .inr ⟨fun m hm hsuffix => ?_, ?_⟩
    · exact List.find?_eq_none.mp hfind m hm (List.isSuffixOf_iff_suffix.mpr hsuffix)
    · simp only [unmarked, hfind]
      split
      next hfront =>
        obtain ⟨t, rfl⟩ := List.isPrefixOf_iff_prefix.mp hfront
        exact .inl (by rw [List.drop_left' length_frontMark])
      next hfront => exact .inr ⟨fun h => hfront (List.isPrefixOf_iff_prefix.mpr h), rfl⟩

theorem unmarked_append (hm : m ∈ marks) (t : List Char) : unmarked (t ++ m.toList) = t := by
  obtain ⟨n, hn, heq⟩ | ⟨hno, -⟩ := unmarked_cases (t ++ m.toList)
  · exact (List.append_inj_left' heq (by rw [length_mark m hm, length_mark n hn])).symm
  · exact absurd (List.suffix_append t m.toList) (hno m hm)

theorem unmarked_isInfix (s : List Char) : unmarked s <:+: s := by
  obtain ⟨m, -, heq⟩ | ⟨-, heq | ⟨-, heq⟩⟩ := unmarked_cases s
  · exact List.IsPrefix.isInfix ⟨_, heq.symm⟩
  · exact List.IsSuffix.isInfix ⟨_, heq.symm⟩
  · rw [heq]

theorem eq_nil_of_append_mem {a : List Char} (ha : a ∈ (frontMark :: marks).map String.toList)
    (h : s ++ a ∈ (frontMark :: marks).map String.toList ∨
      a ++ s ∈ (frontMark :: marks).map String.toList) : s = [] := by
  have hlength : ∀ b ∈ (frontMark :: marks).map String.toList, b.length = 5 := by decide
  have hlong : s.length + a.length = 5 := by
    cases h with
    | inl hbehind => rw [← List.length_append, hlength _ hbehind]
    | inr hfront => rw [Nat.add_comm, ← List.length_append, hlength _ hfront]
  rw [hlength a ha] at hlong
  exact List.eq_nil_of_length_eq_zero (by omega)

theorem unmarked_eq_nil (hs : s ≠ []) :
    unmarked s = [] ↔ s ∈ (frontMark :: marks).map String.toList := by
  obtain ⟨m, hm, heq⟩ | ⟨hno, heq | ⟨hfront, heq⟩⟩ := unmarked_cases s
  · have hmark : m.toList ∈ (frontMark :: marks).map String.toList :=
      List.mem_map_of_mem (List.mem_cons_of_mem _ hm)
    constructor
    · intro hnil
      rw [heq, hnil]
      exact hmark
    · intro hmem
      rw [heq] at hmem
      exact eq_nil_of_append_mem hmark (.inl hmem)
  · have hmark : frontMark.toList ∈ (frontMark :: marks).map String.toList := by simp
    constructor
    · intro hnil
      rw [heq, hnil, List.append_nil]
      exact hmark
    · intro hmem
      rw [heq] at hmem
      exact eq_nil_of_append_mem hmark (.inr hmem)
  · rw [heq]
    refine ⟨fun hnil => absurd hnil hs, fun hmem => ?_⟩
    rw [List.map_cons, List.mem_cons, List.mem_map] at hmem
    obtain rfl | ⟨m, hm, rfl⟩ := hmem
    · exact absurd List.prefix_rfl hfront
    · exact absurd List.suffix_rfl (hno m hm)

/-- A mark behind a text that is the front mark before the same text. -/
theorem mark_of_shift (hm : m ∈ marks) (h : s ++ m.toList = frontMark.toList ++ s) :
    m = "_test" := by
  have hone : ∀ n ∈ marks, n.toList.count '_' = 1 → n = "_test" := by decide
  have hcount := congrArg (List.count '_') h
  have hfront : frontMark.toList.count '_' = 1 := by decide
  rw [List.count_append, List.count_append, hfront] at hcount
  exact hone m hm (by omega)

theorem shift_iff (hm : m ∈ marks) : s ++ m.toList = frontMark.toList ++ s ↔
    frontMark.toList ++ (s ++ m.toList) = s ++ m.toList ++ "_test".toList := by
  constructor
  · intro h
    obtain rfl := mark_of_shift hm h
    rw [← List.append_assoc, ← h]
  · intro h
    rw [← List.append_assoc] at h
    exact (List.append_inj_left' h (by rw [length_mark m hm]; rfl)).symm

/-- Where a mark that ends a text with the front mark is not a mark behind the text, the two marks
share the underscore. -/
theorem overlap_cases (hm : m ∈ marks) (hs : s ≠ [])
    (h : frontMark.toList ++ s = t ++ m.toList) :
    (∃ u, t = frontMark.toList ++ u ∧ s = u ++ m.toList) ∨ s = "test".toList ∧ t = "test".toList := by
  have hshared : ∀ c ∈ frontMark.toList.tails, ∀ n ∈ marks, c <+: n.toList →
      c = [] ∨ c = ['_'] ∧ n = "_test" ∨ c = n.toList := by decide
  obtain ⟨u, ht, hu⟩ | ⟨c, ht, hc⟩ := List.append_eq_append_iff.mp h
  · exact .inl ⟨u, ht, hu⟩
  · have htail : c ∈ frontMark.toList.tails := (List.mem_tails _ _).mpr ⟨t, ht.symm⟩
    obtain rfl | ⟨rfl, rfl⟩ | rfl := hshared c htail m hm ⟨s, hc.symm⟩
    · exact .inl ⟨[], by simpa using ht.symm, hc.symm⟩
    · have hts : "test".toList ++ ['_'] = t ++ ['_'] := ht
      have hss : ['_'] ++ "test".toList = ['_'] ++ s := hc
      exact .inr ⟨(List.append_cancel_left hss).symm, (List.append_cancel_right hts).symm⟩
    · exact absurd (List.self_eq_append_right.mp hc) hs

end Unmarked

section Resembles

def Resembles (s t : List Char) : Prop := s ≠ [] ∧ t ≠ [] ∧ (s <:+: t ∨ t <:+: s)

theorem alike_iff {a b : String} : alike a b = true ↔ Resembles a.toList b.toList := by
  simp only [alike, Resembles, Bool.and_eq_true, Bool.or_eq_true, bne_iff_ne, ne_eq,
    Text.occursIn_iff, String.toList_eq_nil_iff, and_assoc]

variable {m : String} {s t : List Char}

theorem resembles_self (hs : s ≠ []) : Resembles s s := ⟨hs, hs, .inl List.infix_rfl⟩

theorem resembles_iff_eq (hs : s ≠ []) (hlength : s.length = t.length) : Resembles s t ↔ s = t := by
  constructor
  · intro h
    obtain ⟨-, -, hin | hin⟩ := h
    · exact hin.eq_of_length hlength
    · exact (hin.eq_of_length hlength.symm).symm
  · intro h
    rw [← h]
    exact resembles_self hs

theorem resembles_unmarked (hs : s ≠ []) :
    Resembles s (unmarked s) ↔ s ∉ (frontMark :: marks).map String.toList := by
  rw [← unmarked_eq_nil hs]
  exact ⟨fun h => h.2.1, fun hne => ⟨hs, hne, .inr (unmarked_isInfix s)⟩⟩

/-- A front mark is taken away, unless a mark behind goes instead, and then what is left is the
stem only where both marks make the same name of it. -/
theorem resembles_unmarked_front (hs : s ≠ []) :
    Resembles s (unmarked (frontMark.toList ++ s)) ↔
      (∀ m ∈ marks, ¬ m.toList <:+ s) ∨ frontMark.toList ++ s = s ++ "_test".toList := by
  obtain ⟨m, hm, heq⟩ | ⟨hno, heq | ⟨hfront, -⟩⟩ := unmarked_cases (frontMark.toList ++ s)
  · obtain ⟨u, ht, rfl⟩ | ⟨rfl, ht⟩ := overlap_cases hm hs heq
    · have hlength : (u ++ m.toList).length = (frontMark.toList ++ u).length := by
        rw [List.length_append, List.length_append, length_mark m hm, length_frontMark,
          Nat.add_comm]
      have hmarked : ¬ ∀ m' ∈ marks, ¬ m'.toList <:+ u ++ m.toList := fun hno =>
        hno m hm (List.suffix_append u m.toList)
      rw [ht, resembles_iff_eq hs hlength, shift_iff hm, or_iff_right hmarked]
    · rw [ht]
      exact iff_of_true (resembles_self hs) (.inl (by decide))
  · rw [← List.append_cancel_left heq]
    exact iff_of_true (resembles_self hs)
      (.inl fun m hm hsuffix => hno m hm (hsuffix.trans (List.suffix_append _ s)))
  · exact absurd (List.prefix_append _ s) hfront

end Resembles

section Names

variable {path test stem base name ending : String}

def IsTestStem (stem base : String) : Prop :=
  (∃ m ∈ marks, base = stem ++ m) ∨ base = stem ∨ base = frontMark ++ stem

def IsTestName (stem name : String) : Prop :=
  ∃ base ending, IsTestStem stem base ∧ IsEnding ending ∧ '/' ∉ ending.toList ∧
    name = base ++ ending

theorem IsTestStem.ne_empty (h : IsTestStem stem base) (hstem : stem ≠ "") : base ≠ "" := by
  obtain ⟨m, -, rfl⟩ | rfl | rfl := h
  · simp [hstem]
  · exact hstem
  · simp [hstem]

theorem IsTestStem.notMem (h : IsTestStem stem base) (hslash : '/' ∉ stem.toList) :
    '/' ∉ base.toList := by
  have hmarks : ∀ m ∈ frontMark :: marks, '/' ∉ m.toList := by decide
  obtain ⟨m, hm, rfl⟩ | rfl | rfl := h
  · simpa [hslash] using hmarks m (List.mem_cons_of_mem _ hm)
  · exact hslash
  · simpa [hslash] using hmarks frontMark List.mem_cons_self

theorem IsTestStem.lower (h : IsTestStem stem base) (hascii : Text.IsAscii stem) :
    IsTestStem (Text.lower stem) (Text.lower base) := by
  have hmarks : ∀ m ∈ frontMark :: marks,
      Text.IsAscii m ∧ m.toList.map Char.toLower = m.toList := by decide
  have hlower : ∀ m ∈ frontMark :: marks, Text.lower m = m := by
    intro m hm
    rw [← String.toList_inj, Text.toList_lower (hmarks m hm).1, (hmarks m hm).2]
  obtain ⟨m, hm, rfl⟩ | rfl | rfl := h
  · have hmem := List.mem_cons_of_mem frontMark hm
    exact .inl ⟨m, hm, by rw [Text.lower_append hascii (hmarks m hmem).1, hlower m hmem]⟩
  · exact .inr (.inl rfl)
  · refine .inr (.inr ?_)
    rw [Text.lower_append (hmarks frontMark List.mem_cons_self).1 hascii,
      hlower frontMark List.mem_cons_self]

theorem IsTestName.isPart (h : IsTestName stem name) (hslash : '/' ∉ stem.toList) :
    IsPart name := by
  obtain ⟨base, ending, hbase, hending, hnone, rfl⟩ := h
  obtain ⟨after, hafter, -, hlist⟩ := hending.exists_toList
  refine isPart_withEnding (hbase.notMem hslash) hnone ?_
  rw [hlist, List.length_cons]
  exact Nat.succ_lt_succ (List.length_pos_iff.mpr hafter)

theorem isEnding_suffix {l : Language} (h : Language.ofPath? path = some l) :
    IsEnding (ofString path).suffix := by
  obtain hempty | hending := snd_cutName_cases (ofString path).name
  · have hnone : Language.ofSuffix? (Text.lower "") = none := by decide +kernel
    rw [Language.ofPath?, suffix, hempty, hnone] at h
    cases h
  · exact hending

theorem name_ne_empty {l : Language} (h : Language.ofPath? path = some l) :
    (ofString path).name ≠ "" := by
  intro hempty
  have hending := isEnding_suffix h
  rw [suffix, hempty] at hending
  exact absurd hending (by decide)

theorem notMem_stem (h : (ofString path).name ≠ "") :
    '/' ∉ (ofString path).stem.toList ∧ '/' ∉ (ofString path).suffix.toList := by
  have hslash := (isPart_name h).2.2
  rw [← cutName_append_snd (ofString path).name, String.toList_append, List.mem_append,
    not_or] at hslash
  exact hslash

theorem suffixes_spec (l : Language) : ∀ e ∈ l.suffixes,
    IsEnding e ∧ '/' ∉ e.toList ∧ Language.ofSuffix? (Text.lower e) = some l := by
  cases l <;> decide +kernel

namespace Convention

variable {folder : Option String} {language : Option Language} {suffix : String}

theorem isTestStem (h : Convention stem suffix language folder base ending) :
    IsTestStem stem base := by
  have hmarks : ∀ m ∈ [".test", ".spec"], m ∈ marks := by decide
  cases h with
  | script hmarked => exact .inl ⟨_, hmarks _ hmarked, rfl⟩
  | scriptAlike => exact .inr (.inl rfl)
  | pythonFront => exact .inr (.inr rfl)
  | pythonBehind => exact .inl ⟨_, by decide, rfl⟩
  | go => exact .inl ⟨_, by decide, rfl⟩
  | other hmarked => exact .inl ⟨_, hmarks _ hmarked, rfl⟩

theorem ending_spec {l : Language} (hlanguage : Language.ofPath? path = some l)
    (h : Convention stem (ofString path).suffix (some l) folder base ending) :
    IsEnding ending ∧ '/' ∉ ending.toList ∧ Language.ofSuffix? (Text.lower ending) = some l := by
  obtain heq | ⟨_, heq, hmem⟩ := h.ending_cases
  · have hending := isEnding_suffix hlanguage
    rw [heq]
    exact ⟨hending, (notMem_stem (name_ne_empty hlanguage)).2, hlanguage⟩
  · rw [Option.some.inj heq]
    exact suffixes_spec _ ending hmem

end Convention

theorem isPart_testFolders : ∀ f ∈ testFolders, IsPart f := by decide

theorem isPart_parent (path : String) : ∀ q ∈ (ofString path).parent.parts, IsPart q := fun _ hq =>
  isPart_of_mem_ofString (List.mem_of_mem_dropLast hq)

namespace Convention

variable {folder : Option String} (hname : (ofString path).name ≠ "")
  (h : Convention (ofString path).stem (ofString path).suffix (Language.ofPath? path) folder base
    ending)

include hname h

theorem isTestName : IsTestName (ofString path).stem (base ++ ending) := by
  cases hlanguage : Language.ofPath? path with
  | some l =>
    rw [hlanguage] at h
    obtain ⟨hending, hslash, -⟩ := h.ending_spec hlanguage
    exact ⟨base, ending, h.isTestStem, hending, hslash, rfl⟩
  | none =>
    -- Where the file has no ending, the mark becomes that of the test.
    rw [hlanguage] at h
    cases h with
    | @other mark hmarked =>
      have hdotted : ∀ m ∈ [".test", ".spec"], m ∈ marks ∧ IsEnding m ∧ '/' ∉ m.toList := by decide
      obtain ⟨hmark, hending, hslash⟩ := hdotted mark hmarked
      obtain hempty | hsuffix := snd_cutName_cases (ofString path).name
      · refine ⟨_, mark, .inr (.inl rfl), hending, hslash, ?_⟩
        rw [suffix, hempty, String.append_empty]
      · exact ⟨_, _, .inl ⟨mark, hmark, rfl⟩, hsuffix, (notMem_stem hname).2, rfl⟩

theorem isPart : IsPart (base ++ ending) := (h.isTestName hname).isPart (notMem_stem hname).1

theorem ofString_text : ofString (placeIn (ofString path).parent folder (base ++ ending)).text =
    placeIn (ofString path).parent folder (base ++ ending) :=
  ofString_text_placeIn (isPart_parent path)
    (fun f hf => isPart_testFolders f (h.mem_testFolders f hf)) (h.isPart hname)

theorem name_text :
    (ofString (placeIn (ofString path).parent folder (base ++ ending)).text).name =
      base ++ ending := by
  rw [h.ofString_text hname, name_placeIn (h.isPart hname)]

theorem parent_text :
    (ofString (placeIn (ofString path).parent folder (base ++ ending)).text).parent =
      folder.elim (ofString path).parent (ofString path).parent.child := by
  rw [h.ofString_text hname, parent_placeIn (h.isPart hname)]

end Convention

theorem name_of_mem_conventionalTests (hname : (ofString path).name ≠ "")
    (h : test ∈ conventionalTests path) : IsTestName (ofString path).stem (ofString test).name := by
  obtain ⟨folder, base, ending, hconvention, heq⟩ := mem_conventionalTests_iff.mp h
  rw [heq, hconvention.name_text hname]
  exact hconvention.isTestName hname

theorem bareStem_of_isPart (h : IsPart name) : bareStem name = Text.lower (cutName name).1 := by
  rw [bareStem, ofString_of_isPart h]
  rfl

theorem isTestStem_bareStem (hname : (ofString path).name ≠ "")
    (hascii : Text.IsAscii (ofString path).name) (h : test ∈ conventionalTests path) :
    IsTestStem (bareStem (ofString path).name) (bareStem (ofString test).name) := by
  have hstem : (ofString path).stem ≠ "" := fst_cutName_ne hname
  have hmarked := name_of_mem_conventionalTests hname h
  rw [bareStem_of_isPart (isPart_name hname),
    bareStem_of_isPart (hmarked.isPart (notMem_stem hname).1)]
  obtain ⟨base, ending, hbase, hending, -, heq⟩ := hmarked
  rw [heq, cutName_append (hbase.ne_empty hstem) hending]
  rw [← cutName_append_snd (ofString path).name, Text.isAscii_append] at hascii
  exact hbase.lower hascii.1

end Names

section Obscured

variable {stem base : String}

/-- The stem of a test's name from which the stem of the file is not found again: nothing is left
of it, or the front mark is left and the stem is cut instead. -/
def Obscures (base stem : String) : Prop :=
  base = stem ∧ stem ∈ frontMark :: marks ∨
    base = frontMark ++ stem ∧ (∃ m ∈ marks, m.toList <:+ stem.toList) ∧
      frontMark ++ stem ≠ stem ++ "_test"

instance (base stem : String) : Decidable (Obscures base stem) :=
  inferInstanceAs (Decidable (_ ∨ _))

theorem resembles_iff_not_obscures (h : IsTestStem stem base) (hstem : stem ≠ "") :
    Resembles stem.toList (unmarked base.toList) ↔ ¬ Obscures base stem := by
  have hne : stem.toList ≠ [] := String.toList_eq_nil_iff.not.mpr hstem
  have hfront : ¬ stem = frontMark ++ stem := by
    intro heq
    have hlength := congrArg (fun s : String => s.toList.length) heq
    simp only [String.toList_append, List.length_append, length_frontMark] at hlength
    omega
  obtain ⟨m, hm, rfl⟩ | rfl | rfl := h
  · rw [String.toList_append, unmarked_append hm]
    refine iff_of_true (resembles_self hne) ?_
    intro hobscured
    obtain ⟨heq, -⟩ | ⟨heq, -, hshift⟩ := hobscured
    · have hlength := congrArg (fun s : String => s.toList.length) heq
      simp only [String.toList_append, List.length_append, length_mark m hm] at hlength
      omega
    · have hlists := congrArg String.toList heq
      rw [String.toList_append, String.toList_append] at hlists
      rw [mark_of_shift hm hlists] at heq
      exact hshift heq.symm
  · rw [resembles_unmarked hne, List.mem_map_of_injective fun _ _ heq => String.toList_injective heq,
      Obscures, and_iff_right rfl, or_iff_left fun hobscured => hfront hobscured.1]
  · have hshift : frontMark.toList ++ stem.toList = stem.toList ++ "_test".toList ↔
        frontMark ++ stem = stem ++ "_test" := by
      rw [← String.toList_inj, String.toList_append, String.toList_append]
    have hbare : ¬ (frontMark ++ stem = stem ∧ stem ∈ frontMark :: marks) := fun hobscured =>
      hfront hobscured.1.symm
    rw [String.toList_append, resembles_unmarked_front hne, hshift, Obscures, or_iff_right hbare,
      and_iff_right rfl, not_and_or, not_not, not_exists]
    simp only [not_and]

end Obscured

end Evidence

namespace Repository

/-- The test is reported for the changed file, and with more than a mention of the file's name. -/
def Relates (r : Repository) (path test : String) : Prop :=
  ∃ c, r.findTests [path] = .ok c ∧ ∃ t ∈ c.relatedTests, t.path = test ∧ path ∈ t.relatedFiles ∧
    Confidence.medium.rank ≤ t.confidence.rank

variable {r : Repository} {path test : String}

theorem relates_iff_evidenceOf : r.Relates path test ↔
    r.coverageFault? [path] = none ∧ test ∈ r.consideredTests [path] ∧
      ∃ e, r.evidenceOf test path = some e ∧ Confidence.medium.rank ≤ e.rank := by
  have hone : [path].eraseDups = [path] := rfl
  simp only [Relates, findTests_eq_ok]
  constructor
  · intro hrelates
    obtain ⟨_, ⟨hfault, rfl⟩, t, ht, rfl, hpath, hrank⟩ := hrelates
    rw [coverageOf_eq (List.cons_ne_nil _ _), hone] at ht
    obtain ⟨test, htest, hscored⟩ := List.mem_filterMap.mp ht
    have htells := tells_of_testEvidence hscored
    obtain ⟨other, hother⟩ := htells.confidence_mem
    obtain ⟨hmem, hev⟩ := (htells.mem_evidence _ _).mp hother
    rw [List.mem_singleton.mp hmem] at hev
    exact ⟨hfault, by rwa [path_of_testEvidence hscored], _, hev, hrank⟩
  · intro hev
    obtain ⟨hfault, htest, e, hev, hrank⟩ := hev
    have hmem : (path, e) ∈ r.evidenceAmong test [path] :=
      mem_evidenceAmong.mpr ⟨List.mem_singleton_self _, hev⟩
    have hscored := testEvidence_eq_some.mpr ⟨List.ne_nil_of_mem hmem, rfl⟩
    have htells := tells_of_testEvidence hscored
    refine ⟨_, ⟨hfault, rfl⟩, r.scored test [path], ?_, rfl, ?_, ?_⟩
    · rw [coverageOf_eq (List.cons_ne_nil _ _), hone]
      exact List.mem_filterMap.mpr ⟨test, htest, hscored⟩
    · rw [htells.files_evidence]
      exact List.mem_map.mpr ⟨_, hmem, rfl⟩
    · exact hrank.trans (htells.rank_le _ _ hmem)

theorem medium_le_evidenceOf : (∃ e, r.evidenceOf test path = some e ∧
    Confidence.medium.rank ≤ e.rank) ↔ path ≠ test ∧
      ((∃ specifier ∈ r.importedBy test, r.resolver.resolve? specifier test = some path) ∨
        alike (bareStem (ofString path).name) (testedStem (ofString test).name) = true) := by
  rw [← List.mem_filterMap, evidenceOf, evidenceFor]
  split
  next h => simp [eq_of_beq h]
  next h =>
    have hne : path ≠ test := fun heq => h (beq_iff_eq.mpr heq)
    split
    next hi => simp [hne, List.contains_iff_mem.mp hi, Confidence.rank]
    next hi =>
      rw [List.contains_iff_mem] at hi
      split
      next hlike => simp [hne, hlike, Confidence.rank]
      next hlike =>
        have hnone : ¬ (path ≠ test ∧ (path ∈ (r.importedBy test).filterMap
            (r.resolver.resolve? · test) ∨
              alike (bareStem (ofString path).name) (testedStem (ofString test).name) = true)) :=
          fun hsome => hsome.2.elim hi hlike
        refine iff_of_false ?_ hnone
        split <;> simp [Confidence.rank]

theorem mem_consideredTests_of_readsBeside (hreads : r.ReadsBeside path)
    (htest : test ∈ conventionalTests path)
    (hfile : r.disk.isFileAt (r.root.child test) = true) : test ∈ r.consideredTests [path] := by
  rw [mem_consideredTests]
  refine (hreads test htest).imp_right fun hlooked => ?_
  refine ⟨⟨path, List.mem_singleton_self _, htest⟩, ?_⟩
  have hopen : r.disk.refuses (r.root.child test) = false := by
    have hlook := hlooked.1
    rw [lookFault?, Source.lookFault?] at hlook
    simpa using hlook
  rw [isFile, Source.isFileIn, hopen, hfile]
  rfl

/-- A test that stands by convention is related to the changed file, unless something cannot be
looked up or scored, or the test does not import the file and its name obscures the stem. -/
theorem relates_iff (r : Repository) {path test : String} (hname : (ofString path).name ≠ "")
    (hascii : Text.IsAscii (ofString path).name) (htest : test ∈ conventionalTests path)
    (hne : test ≠ path) (hfile : r.disk.isFileAt (r.root.child test) = true) :
    r.Relates path test ↔
      ((∀ folder ∈ r.settings.tests.folders, r.folderFault? folder = none) ∧
        (∀ listed ∈ r.listedTests, r.testFault? listed = none) ∧ r.ReadsBeside path) ∧
      (¬ Obscures (bareStem (ofString test).name) (bareStem (ofString path).name) ∨
        ∃ specifier ∈ r.importedBy test, r.resolver.resolve? specifier test = some path) := by
  have hstem : bareStem (ofString path).name ≠ "" := by
    rw [bareStem_of_isPart (isPart_name hname)]
    rw [← cutName_append_snd (ofString path).name, Text.isAscii_append] at hascii
    exact Text.lower_ne_empty hascii.1 (fst_cutName_ne hname)
  have halike := resembles_iff_not_obscures (isTestStem_bareStem hname hascii htest) hstem
  rw [relates_iff_evidenceOf, medium_le_evidenceOf, and_iff_right hne.symm, alike_iff,
    testedStem_eq, String.toList_ofList, halike, or_comm,
    coverageFault?_eq_none (List.cons_ne_nil _ _), List.forall_mem_singleton, and_assoc (c :=
      r.ReadsBeside path)]
  refine and_congr_right fun hfaults => and_iff_right ?_
  exact mem_consideredTests_of_readsBeside hfaults.2.2 htest hfile

theorem relates_sourceAndTest : "f_test.go" ∈ conventionalTests "f.go" ∧
    sourceAndTest.disk.isFileAt (sourceAndTest.root.child "f_test.go") = true ∧
    sourceAndTest.Relates "f.go" "f_test.go" := by
  have htest : "f_test.go" ∈ conventionalTests "f.go" := by decide +kernel
  have hfile : sourceAndTest.disk.isFileAt (sourceAndTest.root.child "f_test.go") = true := by
    decide +kernel
  have hascii : Text.IsAscii (ofString "f.go").name := by decide +kernel
  have hreads : sourceAndTest.ReadsBeside "f.go" := by
    unfold ReadsBeside
    decide +kernel
  have hlisted : sourceAndTest.listedTests = [] := by decide +kernel
  refine ⟨htest, hfile, (relates_iff sourceAndTest (by decide +kernel) hascii htest (by decide)
    hfile).mpr ⟨⟨by decide +kernel, ?_, hreads⟩, .inl (by decide +kernel)⟩⟩
  rw [hlisted]
  exact List.forall_mem_nil _

def loadAndTest : Repository :=
  { machine := .usual
    disk := .folder [("p", .folder [("load_test.py", .file []), ("test_load_test.py", .file [])])]
    root := ⟨.root, ["p"]⟩
    settings := {} }

/-- The mark behind is a part of the stem, but it is taken for that of the test. -/
theorem not_relates_loadAndTest : "test_load_test.py" ∈ conventionalTests "load_test.py" ∧
    loadAndTest.disk.isFileAt (loadAndTest.root.child "test_load_test.py") = true ∧
    ¬ loadAndTest.Relates "load_test.py" "test_load_test.py" := by
  have hnone : loadAndTest.evidenceOf "test_load_test.py" "load_test.py" = none := by
    decide +kernel
  refine ⟨by decide +kernel, by decide +kernel, ?_⟩
  intro hrelates
  obtain ⟨-, -, e, hev, -⟩ := relates_iff_evidenceOf.mp hrelates
  rw [hnone] at hev
  cases hev

end Repository

end ChangeImpact
