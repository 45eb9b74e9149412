import ChangeImpact.Proofs.Data.Entries
import ChangeImpact.Proofs.Decimal.Binary64
import ChangeImpact.Proofs.Evidence.Relation

/-!
# One relation behind the tests of a change

Which test has evidence for which file is one relation. The files of each test, the order of the
tests, the files that no test covers and the share of the others are all read off it, so that a
report on the tests cannot contradict itself.
-/

namespace ChangeImpact

namespace Evidence

section Strongest

variable {c : Confidence} {cs : List Confidence}

def stronger (a c : Confidence) : Confidence := if a.rank < c.rank then c else a

theorem strongest_eq_foldl (cs : List Confidence) : strongest cs = cs.foldl stronger .low := rfl

theorem stronger_eq (a c : Confidence) : stronger a c = a ∨ stronger a c = c := by
  unfold stronger
  split <;> simp

theorem rank_le_stronger (a c : Confidence) :
    a.rank ≤ (stronger a c).rank ∧ c.rank ≤ (stronger a c).rank := by
  unfold stronger
  split <;> omega

theorem foldl_stronger_mem (cs : List Confidence) (a : Confidence) :
    cs.foldl stronger a ∈ a :: cs := by
  induction cs generalizing a with
  | nil => exact List.mem_cons_self
  | cons c cs ih =>
    rw [List.foldl_cons]
    cases List.mem_cons.mp (ih (stronger a c)) with
    | inl hfirst =>
      rw [hfirst]
      cases stronger_eq a c with
      | inl ha => simp [ha]
      | inr hc => simp [hc]
    | inr hlater => exact List.mem_cons_of_mem a (List.mem_cons_of_mem c hlater)

theorem rank_le_foldl_stronger (cs : List Confidence) (a : Confidence) :
    ∀ c ∈ a :: cs, c.rank ≤ (cs.foldl stronger a).rank := by
  induction cs generalizing a with
  | nil => simp
  | cons b cs ih =>
    have hstep := rank_le_stronger a b
    have hkept := ih (stronger a b) _ List.mem_cons_self
    intro c hc
    rw [List.foldl_cons]
    cases hc with
    | head => exact Nat.le_trans hstep.1 hkept
    | tail _ hc =>
      cases hc with
      | head => exact Nat.le_trans hstep.2 hkept
      | tail _ hc => exact ih _ c (List.mem_cons_of_mem _ hc)

theorem rank_le_strongest (h : c ∈ cs) : c.rank ≤ (strongest cs).rank :=
  rank_le_foldl_stronger cs .low c (List.mem_cons_of_mem _ h)

theorem eq_low_of_rank_le (h : c.rank ≤ Confidence.low.rank) : c = .low := by
  cases c with
  | low => rfl
  | medium => exact absurd h (by decide)
  | high => exact absurd h (by decide)

/-- The search starts at the weakest evidence, which is no answer of its own. -/
theorem strongest_mem (h : cs ≠ []) : strongest cs ∈ cs := by
  cases List.mem_cons.mp (foldl_stronger_mem cs .low) with
  | inr hmem => exact hmem
  | inl hlow =>
    obtain ⟨c, hc⟩ := List.exists_mem_of_ne_nil cs h
    have hrank := rank_le_strongest hc
    rw [strongest_eq_foldl, hlow] at hrank ⊢
    rwa [← eq_low_of_rank_le hrank]

end Strongest

theorem percent_self {n : Nat} (h : 0 < n) : percent n n = 100 := by
  have hwhole : ((Binary64.one.times 100).plusHalf.truncate?).getD 0 = 100 := by decide +kernel
  rw [percent, Binary64.nearest_self h, hwhole]

theorem percent_zero (n : Nat) : percent 0 n = 0 := by
  rw [percent, Binary64.nearest_zero]
  decide +kernel

end Evidence

open Evidence

structure Evidence.RelatedTest.Tells (r : Repository) (changed : List String) (t : RelatedTest) :
    Prop where
  mem_evidence : ∀ path c, (path, c) ∈ t.evidence ↔
    path ∈ changed ∧ r.evidenceOf t.path path = some c
  files_eq : t.relatedFiles = changed.filter (r.hasEvidence t.path)
  files_evidence : t.relatedFiles = t.evidence.map (·.1)
  files_ne_nil : t.relatedFiles ≠ []
  notMem_files : t.path ∉ t.relatedFiles
  confidence_mem : ∃ path, (path, t.confidence) ∈ t.evidence
  rank_le : ∀ path c, (path, c) ∈ t.evidence → c.rank ≤ t.confidence.rank

/-- A report on the tests of distinct changed files that follows the evidence throughout. The tests
stand in the order in which they are considered, and the files in that of the change. -/
structure Evidence.Coverage.Follows (r : Repository) (changed : List String) (c : Coverage) :
    Prop where
  tells : ∀ t ∈ c.relatedTests, t.Tells r changed
  tests_eq : c.relatedTests.map (·.path) =
    (r.consideredTests changed).filter fun test => changed.any (r.hasEvidence test)
  tests_nodup : (c.relatedTests.map (·.path)).Nodup
  missing_eq : c.missingTests =
    changed.filter fun path => ∀ t ∈ c.relatedTests, path ∉ t.relatedFiles
  percent_nonneg : 0 ≤ c.coveragePercent
  percent_le : c.coveragePercent ≤ 100
  percent_of_missing_eq_nil : c.missingTests = [] → c.coveragePercent = 100
  percent_of_tests_eq_nil : c.relatedTests = [] → c.coveragePercent = 0

namespace Repository

variable {r : Repository} {changed : List String} {test path : String} {t : RelatedTest}

theorem tells_scored (h : r.evidenceAmong test changed ≠ []) :
    (r.scored test changed).Tells r changed where
  mem_evidence _ _ := mem_evidenceAmong
  files_eq := map_fst_evidenceAmong r test changed
  files_evidence := rfl
  files_ne_nil := by simpa [scored] using h
  notMem_files := by
    rw [scored, map_fst_evidenceAmong]
    simp [hasEvidence, evidenceOf_self]
  confidence_mem := by
    have hsome : (r.evidenceAmong test changed).map (·.2) ≠ [] := by simpa using h
    obtain ⟨e, he, hc⟩ := List.mem_map.mp (strongest_mem hsome)
    rw [scored, ← hc]
    exact ⟨e.1, he⟩
  rank_le _ _ he := rank_le_strongest (List.mem_map.mpr ⟨_, he, rfl⟩)

theorem tells_of_testEvidence (h : r.testEvidence test changed = some t) : t.Tells r changed := by
  obtain ⟨hne, rfl⟩ := testEvidence_eq_some.mp h
  exact tells_scored hne

section Report

variable {tests : List RelatedTest}

theorem mem_coveredBy : path ∈ coveredBy tests ↔ ∃ t ∈ tests, path ∈ t.relatedFiles := by
  simp [coveredBy]

theorem tells_of_mem_relatedTo (h : t ∈ r.relatedTo changed) : t.Tells r changed := by
  obtain ⟨test, -, hev⟩ := List.mem_filterMap.mp h
  exact tells_of_testEvidence hev

theorem map_path_relatedTo (r : Repository) (changed : List String) :
    (r.relatedTo changed).map (·.path) =
      (r.consideredTests changed).filter fun test => changed.any (r.hasEvidence test) := by
  have hback : ∀ test t, r.testEvidence test changed = some t → t.path = test :=
    fun _ _ h => path_of_testEvidence h
  rw [relatedTo, map_filterMap_of_inverse hback]
  simp only [isSome_testEvidence]

theorem nodup_map_path_relatedTo (r : Repository) (changed : List String) :
    ((r.relatedTo changed).map (·.path)).Nodup := by
  rw [map_path_relatedTo]
  exact (nodup_eraseDups _).filter _

theorem mem_coveredBy_relatedTo : path ∈ coveredBy (r.relatedTo changed) ↔
    path ∈ changed ∧ ∃ test ∈ r.consideredTests changed, r.hasEvidence test path = true := by
  rw [mem_coveredBy]
  constructor
  · intro h
    obtain ⟨t, ht, hpath⟩ := h
    obtain ⟨test, hconsidered, hscored⟩ := List.mem_filterMap.mp ht
    rw [(tells_of_testEvidence hscored).files_eq, path_of_testEvidence hscored,
      List.mem_filter] at hpath
    exact ⟨hpath.1, test, hconsidered, hpath.2⟩
  · intro h
    obtain ⟨hpath, test, hconsidered, hev⟩ := h
    have hfile : path ∈ (r.scored test changed).relatedFiles := by
      rw [scored, map_fst_evidenceAmong, List.mem_filter]
      exact ⟨hpath, hev⟩
    obtain ⟨e, he⟩ := Option.isSome_iff_exists.mp hev
    have hne : r.evidenceAmong test changed ≠ [] :=
      List.ne_nil_of_mem (mem_evidenceAmong.mpr ⟨hpath, he⟩)
    have hscored := testEvidence_eq_some.mpr ⟨hne, rfl⟩
    exact ⟨_, List.mem_filterMap.mpr ⟨test, hconsidered, hscored⟩, hfile⟩

theorem missingTests_coverageAmong (r : Repository) (changed : List String) :
    (r.coverageAmong changed).missingTests =
      changed.filter fun path => ∀ t ∈ r.relatedTo changed, path ∉ t.relatedFiles := by
  refine List.filter_congr fun path _ => ?_
  rw [Bool.eq_iff_iff]
  simp [mem_coveredBy]

theorem length_coveredBy (hnodup : changed.Nodup)
    (hall : (r.coverageAmong changed).missingTests = []) :
    (coveredBy (r.relatedTo changed)).length = changed.length := by
  have hmem : ∀ path ∈ changed, path ∈ coveredBy (r.relatedTo changed) := by
    intro path hpath
    simpa using List.filter_eq_nil_iff.mp hall path hpath
  exact ((List.perm_ext_iff_of_nodup (nodup_eraseDups _) hnodup).mpr
    fun path => ⟨fun h => (mem_coveredBy_relatedTo.mp h).1, hmem path⟩).length_eq

theorem follows_coverageAmong (hne : changed ≠ []) (hnodup : changed.Nodup) :
    (r.coverageAmong changed).Follows r changed where
  tells _ ht := tells_of_mem_relatedTo ht
  tests_eq := map_path_relatedTo r changed
  tests_nodup := nodup_map_path_relatedTo r changed
  missing_eq := missingTests_coverageAmong r changed
  percent_nonneg := by
    dsimp only [coverageAmong]
    omega
  percent_le := by
    dsimp only [coverageAmong]
    omega
  percent_of_missing_eq_nil hall := by
    dsimp only [coverageAmong]
    rw [length_coveredBy hnodup hall, percent_self (List.length_pos_iff.mpr hne)]
    rfl
  percent_of_tests_eq_nil hnone := by
    have htests : r.relatedTo changed = [] := hnone
    dsimp only [coverageAmong]
    rw [htests]
    exact congrArg (fun p => min 100 (max 0 p)) (percent_zero changed.length)

end Report

/-- The report on the tests of a change follows the evidence for the distinct changed files. -/
theorem findTests_follows (r : Repository) (changed : List String) (c : Coverage)
    (hne : changed ≠ []) (h : r.findTests changed = .ok c) : c.Follows r changed.eraseDups := by
  obtain ⟨-, rfl⟩ := ifNoFault_eq_ok.mp h
  rw [coverageOf_eq hne]
  refine follows_coverageAmong ?_ (nodup_eraseDups changed)
  obtain ⟨path, hpath⟩ := List.exists_mem_of_ne_nil changed hne
  exact List.ne_nil_of_mem (List.mem_eraseDups.mpr hpath)

def sourceAndTest : Repository :=
  { machine := .usual
    disk := .folder [("p", .folder [("f.go", .file []), ("f_test.go", .file [])])]
    root := ⟨.root, ["p"]⟩
    settings := {} }

def sourceAndTestCoverage : Coverage :=
  { relatedTests := [⟨"f_test.go", .medium, ["f.go"], [("f.go", .medium)]⟩]
    coveragePercent := 50
    missingTests := ["f_test.go"]
    considered := 1 }

/-- A changed test does not cover itself. -/
theorem findTests_follows_sourceAndTest :
    sourceAndTest.findTests ["f.go", "f_test.go", "f.go"] = .ok sourceAndTestCoverage ∧
      sourceAndTestCoverage.Follows sourceAndTest ["f.go", "f_test.go", "f.go"].eraseDups := by
  have hfound : sourceAndTest.findTests ["f.go", "f_test.go", "f.go"] =
      .ok sourceAndTestCoverage := by decide +kernel
  exact ⟨hfound, findTests_follows _ _ _ (List.cons_ne_nil _ _) hfound⟩

end Repository

end ChangeImpact
