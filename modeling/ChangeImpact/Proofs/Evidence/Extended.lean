import ChangeImpact.Proofs.Data.Results
import ChangeImpact.Proofs.Evidence.Agreement
import ChangeImpact.Proofs.Evidence.Consistent
import ChangeImpact.Proofs.Path.Named

/-!
# Tests of a larger change

A file that is changed as well takes nothing from the evidence for the other files: each test is
scored with each file by itself, and more tests are considered. But the tests that conventions put
beside the file are looked up as well, and where one of them cannot be looked up or scored, there
is no report at all. `neverWeakens_iff` says when a report on more files keeps what the report on
fewer tells.
-/

namespace ChangeImpact

open Evidence

namespace Evidence.Coverage

def test? (c : Coverage) (test : String) : Option RelatedTest :=
  c.relatedTests.find? (·.path == test)

def evidence? (c : Coverage) (test path : String) : Option Confidence :=
  (c.test? test).bind (·.evidence.lookup path)

def confidence? (c : Coverage) (test : String) : Option Confidence :=
  (c.test? test).map (·.confidence)

end Evidence.Coverage

namespace Repository

/-- The tests that conventions put beside a file are listed anyhow, or can be looked up, and those
that are there can be scored. -/
def ReadsBeside (r : Repository) (path : String) : Prop :=
  ∀ test ∈ conventionalTests path, test ∈ r.listedTests ∨
    r.lookFault? test = none ∧ (r.isFile test = true → r.testFault? test = none)

def HasRelatedTest (r : Repository) (changed : List String) : Prop :=
  ∃ c, r.findTests changed = .ok c ∧ c.relatedTests ≠ []

/-- What is reported on the tests of fewer changed files is reported on those of more. -/
structure NeverWeakens (r : Repository) (fewer more : List String) : Prop where
  evidence : ∀ c, r.findTests fewer = .ok c → ∀ test, ∀ path ∈ fewer, ∀ e,
    c.evidence? test path = some e →
      ∃ d, r.findTests more = .ok d ∧ d.evidence? test path = some e
  confidence : ∀ c, r.findTests fewer = .ok c → ∀ test k, c.confidence? test = some k →
    ∃ d, r.findTests more = .ok d ∧ ∃ k', d.confidence? test = some k' ∧ k.rank ≤ k'.rank
  missing : ∀ d, r.findTests more = .ok d → ∀ path ∈ fewer, path ∈ d.missingTests →
    ∃ c, r.findTests fewer = .ok c ∧ path ∈ c.missingTests

variable {r : Repository} {changed fewer more : List String} {test path : String} {c : Coverage}

section Considered

theorem mem_consideredTests : test ∈ r.consideredTests changed ↔
    test ∈ r.listedTests ∨ (∃ path ∈ changed, test ∈ conventionalTests path) ∧
      r.isFile test = true := by
  simp only [consideredTests, List.mem_eraseDups, List.mem_append, List.mem_filter,
    List.mem_flatMap]

theorem mem_consideredTests_eraseDups :
    test ∈ r.consideredTests changed.eraseDups ↔ test ∈ r.consideredTests changed := by
  simp only [mem_consideredTests, List.mem_eraseDups]

theorem consideredTests_subset (hsub : fewer ⊆ more) :
    r.consideredTests fewer ⊆ r.consideredTests more := by
  intro test htest
  rw [mem_consideredTests] at htest ⊢
  refine htest.imp_right fun ⟨⟨path, hpath, hbeside⟩, hfile⟩ => ?_
  exact ⟨⟨path, hsub hpath, hbeside⟩, hfile⟩

theorem listingFault?_eq_none : r.listingFault? changed = none ↔
    (∀ folder ∈ r.settings.tests.folders, r.folderFault? folder = none) ∧
    ∀ path ∈ changed, ∀ test ∈ conventionalTests path,
      test ∈ r.listedTests ∨ r.lookFault? test = none := by
  rw [listingFault?, Option.or_eq_none_iff, List.findSome?_eq_none_iff,
    List.findSome?_eq_none_iff]
  simp only [List.mem_filter, List.mem_flatMap, Bool.not_eq_true', Bool.eq_false_iff, ne_eq,
    List.contains_iff_mem, and_imp, forall_exists_index, or_iff_not_imp_left]
  exact and_congr_right fun _ => ⟨fun h path hpath test htest => h test path hpath htest,
    fun h test path hpath htest => h path hpath test htest⟩

/-- Nothing keeps the tests from being found just when the listed tests can be listed and scored,
and each changed file has its own tests read. -/
theorem coverageFault?_eq_none (hne : changed ≠ []) : r.coverageFault? changed = none ↔
    ((∀ folder ∈ r.settings.tests.folders, r.folderFault? folder = none) ∧
      ∀ test ∈ r.listedTests, r.testFault? test = none) ∧
    ∀ path ∈ changed, r.ReadsBeside path := by
  rw [coverageFault?, if_neg (List.isEmpty_iff.not.mpr hne), Option.or_eq_none_iff,
    listingFault?_eq_none, List.findSome?_eq_none_iff]
  simp only [mem_consideredTests, List.mem_eraseDups]
  constructor
  · intro h
    obtain ⟨⟨hfolders, hlook⟩, hscored⟩ := h
    refine ⟨⟨hfolders, fun test htest => hscored test (.inl htest)⟩, fun path hpath test htest => ?_⟩
    refine (hlook path hpath test htest).imp_right fun hfound => ⟨hfound, fun hfile => ?_⟩
    exact hscored test (.inr ⟨⟨path, hpath, htest⟩, hfile⟩)
  · intro h
    obtain ⟨⟨hfolders, hlisted⟩, hreads⟩ := h
    refine ⟨⟨hfolders, fun path hpath test htest => (hreads path hpath test htest).imp_right
      And.left⟩, ?_⟩
    rintro test (htest | ⟨⟨path, hpath, htest⟩, hfile⟩)
    · exact hlisted test htest
    · rcases hreads path hpath test htest with hmem | hread
      · exact hlisted test hmem
      · exact hread.2 hfile

end Considered

section Found

theorem findTests_eq_ok : r.findTests changed = .ok c ↔
    r.coverageFault? changed = none ∧ r.coverageOf changed = c := ifNoFault_eq_ok

theorem exists_findTests :
    (∃ c, r.findTests changed = .ok c) ↔ r.coverageFault? changed = none := by
  simp only [findTests_eq_ok, exists_and_left, exists_eq', and_true]

/-- More changed files have their tests found just when fewer have, and those behind them are
read. -/
theorem exists_findTests_of_subset (hne : fewer ≠ []) (hsub : fewer ⊆ more) :
    (∃ d, r.findTests more = .ok d) ↔ (∃ c, r.findTests fewer = .ok c) ∧
      ∀ path ∈ more, path ∉ fewer → r.ReadsBeside path := by
  have hmore : more ≠ [] := by
    obtain ⟨path, hpath⟩ := List.exists_mem_of_ne_nil fewer hne
    exact List.ne_nil_of_mem (hsub hpath)
  rw [exists_findTests, exists_findTests, coverageFault?_eq_none hmore, coverageFault?_eq_none hne]
  constructor
  · intro h
    obtain ⟨hlisted, hall⟩ := h
    exact ⟨⟨hlisted, fun path hpath => hall path (hsub hpath)⟩, fun path hpath _ => hall path hpath⟩
  · intro h
    obtain ⟨⟨hlisted, hfewer⟩, hnew⟩ := h
    refine ⟨hlisted, fun path hpath => ?_⟩
    by_cases hold : path ∈ fewer
    · exact hfewer path hold
    · exact hnew path hpath hold

theorem test?_findTests (h : r.findTests changed = .ok c) (test : String) :
    c.test? test =
      if test ∈ r.consideredTests changed then r.testEvidence test changed.eraseDups else none := by
  obtain ⟨-, rfl⟩ := findTests_eq_ok.mp h
  by_cases hne : changed = []
  · obtain rfl := hne
    simp [Coverage.test?, coverageOf, testEvidence]
  · have hback : ∀ test t, r.testEvidence test changed.eraseDups = some t → t.path = test :=
      fun _ _ ht => path_of_testEvidence ht
    rw [coverageOf_eq hne, Coverage.test?]
    dsimp only [coverageAmong]
    rw [relatedTo, find?_filterMap_of_inverse hback]
    simp only [mem_consideredTests_eraseDups]

theorem evidence?_findTests (h : r.findTests changed = .ok c) {e : Confidence} :
    c.evidence? test path = some e ↔
      test ∈ r.consideredTests changed ∧ path ∈ changed ∧ r.evidenceOf test path = some e := by
  have hlookup : (r.evidenceAmong test changed.eraseDups).lookup path =
      if path ∈ changed.eraseDups then r.evidenceOf test path else none :=
    lookup_filterMap_pair _ _ _
  have hscored : (r.testEvidence test changed.eraseDups).bind (·.evidence.lookup path) =
      (r.evidenceAmong test changed.eraseDups).lookup path := by
    rw [testEvidence_eq]
    split
    next hempty =>
      rw [List.isEmpty_iff.mp hempty]
      rfl
    next => rfl
  rw [Coverage.evidence?, test?_findTests h]
  split
  next hconsidered => simp [hscored, hlookup, hconsidered]
  next hnot => simp [hnot]

theorem confidence?_findTests (h : r.findTests changed = .ok c) {k : Confidence} :
    c.confidence? test = some k ↔ test ∈ r.consideredTests changed ∧
      r.evidenceAmong test changed.eraseDups ≠ [] ∧
        strongest ((r.evidenceAmong test changed.eraseDups).map (·.2)) = k := by
  rw [Coverage.confidence?, test?_findTests h, Option.map_eq_some_iff]
  split
  next hconsidered =>
    simp only [testEvidence_eq_some, hconsidered, true_and]
    constructor
    · intro hscored
      obtain ⟨_, ⟨hne, rfl⟩, rfl⟩ := hscored
      exact ⟨hne, rfl⟩
    · intro hscored
      exact ⟨_, ⟨hscored.1, rfl⟩, hscored.2⟩
  next hnot => simp [hnot]

theorem mem_missingTests (h : r.findTests changed = .ok c) :
    path ∈ c.missingTests ↔ path ∈ changed ∧ ∀ test, c.evidence? test path = none := by
  have hcovered : path ∈ coveredBy (r.relatedTo changed.eraseDups) ↔
      ∃ test, c.evidence? test path ≠ none := by
    simp only [mem_coveredBy_relatedTo, List.mem_eraseDups, mem_consideredTests_eraseDups,
      hasEvidence, Option.isSome_iff_exists, Option.ne_none_iff_exists', evidence?_findTests h]
    constructor
    · intro hev
      obtain ⟨hpath, test, hconsidered, e, he⟩ := hev
      exact ⟨test, e, hconsidered, hpath, he⟩
    · intro hev
      obtain ⟨test, e, hconsidered, hpath, he⟩ := hev
      exact ⟨hpath, test, hconsidered, e, he⟩
  obtain ⟨-, rfl⟩ := findTests_eq_ok.mp h
  by_cases hne : changed = []
  · obtain rfl := hne
    simp [coverageOf]
  · rw [coverageOf_eq hne] at hcovered ⊢
    dsimp only [coverageAmong] at hcovered ⊢
    rw [List.mem_filter, List.mem_eraseDups, Bool.not_eq_true', Bool.eq_false_iff, ne_eq,
      List.contains_iff_mem, hcovered, not_exists]
    simp only [ne_eq, not_not]

theorem relatedTests_ne_nil {t : RelatedTest} (h : c.test? test = some t) :
    c.relatedTests ≠ [] := by
  intro hnil
  simp [Coverage.test?, hnil] at h

theorem relatedTests_eq_nil_or (h : r.findTests changed = .ok c) : c.relatedTests = [] ∨
    ∃ test, ∃ path ∈ changed, ∃ e, c.evidence? test path = some e := by
  simp only [evidence?_findTests h]
  obtain ⟨-, rfl⟩ := findTests_eq_ok.mp h
  by_cases hne : changed = []
  · obtain rfl := hne
    exact .inl rfl
  · rw [coverageOf_eq hne]
    refine or_iff_not_imp_left.mpr fun hrelated => ?_
    obtain ⟨t, ht⟩ := List.exists_mem_of_ne_nil _ hrelated
    obtain ⟨test, hconsidered, hscored⟩ := List.mem_filterMap.mp ht
    obtain ⟨⟨path, e⟩, he⟩ :=
      List.exists_mem_of_ne_nil _ (testEvidence_eq_some.mp hscored).1
    rw [mem_evidenceAmong, List.mem_eraseDups] at he
    rw [mem_consideredTests_eraseDups] at hconsidered
    exact ⟨test, path, he.1, e, hconsidered, he.1, he.2⟩

end Found

section Kept

variable {d : Coverage}

theorem evidence?_kept (hsub : fewer ⊆ more) (hc : r.findTests fewer = .ok c)
    (hd : r.findTests more = .ok d) {e : Confidence} (he : c.evidence? test path = some e) :
    d.evidence? test path = some e := by
  obtain ⟨hconsidered, hpath, hev⟩ := (evidence?_findTests hc).mp he
  exact (evidence?_findTests hd).mpr ⟨consideredTests_subset hsub hconsidered, hsub hpath, hev⟩

theorem confidence?_kept (hsub : fewer ⊆ more) (hc : r.findTests fewer = .ok c)
    (hd : r.findTests more = .ok d) {k : Confidence} (hk : c.confidence? test = some k) :
    ∃ k', d.confidence? test = some k' ∧ k.rank ≤ k'.rank := by
  obtain ⟨hconsidered, hne, rfl⟩ := (confidence?_findTests hc).mp hk
  obtain ⟨⟨path, e⟩, he, hstrongest⟩ := List.mem_map.mp (strongest_mem (by simpa using hne))
  have hkept : (path, e) ∈ r.evidenceAmong test more.eraseDups := by
    rw [mem_evidenceAmong, List.mem_eraseDups] at he ⊢
    exact ⟨hsub he.1, he.2⟩
  refine ⟨_, (confidence?_findTests hd).mpr
    ⟨consideredTests_subset hsub hconsidered, List.ne_nil_of_mem hkept, rfl⟩, ?_⟩
  rw [← hstrongest]
  exact rank_le_strongest (List.mem_map.mpr ⟨_, hkept, rfl⟩)

theorem missing_kept (hsub : fewer ⊆ more) (hc : r.findTests fewer = .ok c)
    (hd : r.findTests more = .ok d) (hpath : path ∈ fewer) (hmissing : path ∈ d.missingTests) :
    path ∈ c.missingTests := by
  refine (mem_missingTests hc).mpr ⟨hpath, fun test => ?_⟩
  cases he : c.evidence? test path with
  | none => rfl
  | some e =>
    have hnone := ((mem_missingTests hd).mp hmissing).2 test
    rw [evidence?_kept hsub hc hd he] at hnone
    cases hnone

end Kept

/-- A report on more changed files keeps what the report on fewer tells, unless there is evidence to
keep and the tests beside a further file cannot be read. -/
theorem neverWeakens_iff (r : Repository) (fewer more : List String) (hsub : fewer ⊆ more) :
    r.NeverWeakens fewer more ↔
      (r.HasRelatedTest fewer → ∀ path ∈ more, path ∉ fewer → r.ReadsBeside path) := by
  constructor
  · intro hkeeps hrelated
    obtain ⟨c, hc, hne⟩ := hrelated
    obtain ⟨test, path, hpath, e, he⟩ := (relatedTests_eq_nil_or hc).resolve_left hne
    obtain ⟨d, hd, -⟩ := hkeeps.evidence c hc test path hpath e he
    exact ((exists_findTests_of_subset (List.ne_nil_of_mem hpath) hsub).mp ⟨d, hd⟩).2
  · intro hreads
    -- A test that is related to a file keeps the smaller change from being empty.
    have hfound : ∀ c, r.findTests fewer = .ok c → c.relatedTests ≠ [] →
        ∃ d, r.findTests more = .ok d := by
      intro c hc hne
      obtain ⟨test, path, hpath, -⟩ := (relatedTests_eq_nil_or hc).resolve_left hne
      exact (exists_findTests_of_subset (List.ne_nil_of_mem hpath) hsub).mpr
        ⟨⟨c, hc⟩, hreads ⟨c, hc, hne⟩⟩
    refine ⟨fun c hc test path _ e he => ?_, fun c hc test k hk => ?_,
      fun d hd path hpath hmissing => ?_⟩
    · obtain ⟨t, ht, -⟩ := Option.bind_eq_some_iff.mp he
      obtain ⟨d, hd⟩ := hfound c hc (relatedTests_ne_nil ht)
      exact ⟨d, hd, evidence?_kept hsub hc hd he⟩
    · obtain ⟨t, ht, -⟩ := Option.map_eq_some_iff.mp hk
      obtain ⟨d, hd⟩ := hfound c hc (relatedTests_ne_nil ht)
      exact ⟨d, hd, confidence?_kept hsub hc hd hk⟩
    · obtain ⟨⟨c, hc⟩, -⟩ :=
        (exists_findTests_of_subset (List.ne_nil_of_mem hpath) hsub).mp ⟨d, hd⟩
      exact ⟨c, hc, missing_kept hsub hc hd hpath hmissing⟩

theorem neverWeakens_test : ["f.go"] ⊆ ["f.go", "f_test.go"] ∧
    sourceAndTest.NeverWeakens ["f.go"] ["f.go", "f_test.go"] := by
  have hsub : ["f.go"] ⊆ ["f.go", "f_test.go"] := by decide
  refine ⟨hsub, (neverWeakens_iff _ _ _ hsub).mpr fun _ path hpath hnew => ?_⟩
  obtain rfl : path = "f_test.go" :=
    List.mem_singleton.mp ((List.mem_cons.mp hpath).resolve_left fun heq => hnew (by simp [heq]))
  unfold ReadsBeside
  decide +kernel

end Repository

theorem isPart_withEnding {stem ending : String} (hstem : '/' ∉ stem.toList)
    (hending : '/' ∉ ending.toList) (hlong : 1 < ending.toList.length) :
    Path.IsPart (stem ++ ending) := by
  refine Path.isPart_of_one_lt_length ?_ ?_
  · rw [String.toList_append, List.length_append]
    exact Nat.lt_add_left _ hlong
  · rw [String.toList_append, List.mem_append, not_or]
    exact ⟨hstem, hending⟩

theorem conventionalTests_go {stem : String} (hne : stem ≠ "") (hslash : '/' ∉ stem.toList) :
    conventionalTests (stem ++ ".go") = [stem ++ "_test.go"] := by
  have hpart : Path.IsPart (stem ++ ".go") := isPart_withEnding hslash (by decide) (by decide)
  have htest : Path.IsPart (stem ++ "_test.go") := isPart_withEnding hslash (by decide) (by decide)
  have hlanguage : Language.ofSuffix? (Text.lower ".go") = some .go := by decide +kernel
  have hcut : Path.cutName (stem ++ ".go") = (stem, ".go") := Path.cutName_append hne (by decide)
  have hstem : Path.stem ⟨.relative, [stem ++ ".go"]⟩ = stem := congrArg Prod.fst hcut
  have hsuffix : Path.suffix ⟨.relative, [stem ++ ".go"]⟩ = ".go" := congrArg Prod.snd hcut
  simp [conventionalTests, Language.ofPath?, Path.ofString_of_isPart hpart, hsuffix, hlanguage,
    hstem, Path.child, Path.ofString_of_isPart htest, Path.parent, Path.join, Path.isAbsolute,
    Path.text, Anchor.text, List.eraseDups_cons]

namespace Repository

def longestStem : String := String.ofList (List.replicate 252 'x')

def longestName : String := longestStem ++ ".go"

theorem toList_longestStem : longestStem.toList = List.replicate 252 'x' := String.toList_ofList

theorem longestName_ne : longestName ≠ "f.go" := by
  have hmem : 'x' ∈ longestName.toList := by
    rw [longestName, String.toList_append, toList_longestStem]
    exact List.mem_append_left _ (List.mem_replicate.mpr ⟨by decide, rfl⟩)
  intro heq
  rw [heq] at hmem
  exact absurd hmem (by decide)

theorem not_readsBeside_longestName : ¬ sourceAndTest.ReadsBeside longestName := by
  have hslash : '/' ∉ longestStem.toList := by
    rw [toList_longestStem]
    decide
  have hne : longestStem ≠ "" := by
    rw [ne_eq, ← String.toList_eq_nil_iff, toList_longestStem]
    decide
  have hnull : '\x00' ∉ (longestStem ++ "_test.go").toList := by
    rw [String.toList_append, toList_longestStem]
    decide
  have hlong : Tree.nameLimit < (longestStem ++ "_test.go").utf8ByteSize := by decide +kernel
  have hlisted : sourceAndTest.listedTests = [] := by decide +kernel
  have hbeside : longestStem ++ "_test.go" ∈ conventionalTests longestName := by
    rw [longestName, conventionalTests_go hne hslash]
    exact List.mem_cons_self
  intro hreads
  rcases hreads _ hbeside with hmem | hread
  · rw [hlisted] at hmem
    cases hmem
  · exact lookFault?_of_long rfl rfl (isPart_withEnding hslash (by decide) (by decide)) hnull hlong
      hread.1

/-- One more changed file, and the evidence that there was is not reported. -/
theorem not_neverWeakens_longestName :
    ¬ sourceAndTest.NeverWeakens ["f.go"] ["f.go", longestName] := by
  have hfound : (sourceAndTest.findTests ["f.go"]).map (·.relatedTests) =
      .ok [⟨"f_test.go", .medium, ["f.go"], [("f.go", .medium)]⟩] := by decide +kernel
  obtain ⟨c, hc, hrelated⟩ := map_eq_ok.mp hfound
  have hev : c.evidence? "f_test.go" "f.go" = some .medium := by
    rw [Coverage.evidence?, Coverage.test?, hrelated]
    decide
  have hnew : longestName ∉ ["f.go"] := fun hmem =>
    longestName_ne (List.mem_singleton.mp hmem)
  intro hkeeps
  obtain ⟨d, hd, -⟩ := hkeeps.evidence c hc _ _ (List.mem_singleton_self _) _ hev
  have hsub : ["f.go"] ⊆ ["f.go", longestName] := List.cons_subset_cons _ (List.nil_subset _)
  have hreads := ((exists_findTests_of_subset (List.cons_ne_nil _ _) hsub).mp ⟨d, hd⟩).2
  exact not_readsBeside_longestName
    (hreads longestName (List.mem_cons_of_mem _ List.mem_cons_self) hnew)

end Repository

end ChangeImpact
