import ChangeImpact.Proofs.Json.Spellable
import ChangeImpact.Settings

/-!
# Settings that are checked

Settings that come out of a check are within the limits, and those that are within the limits
come out of the check of what is written for them.
-/

namespace ChangeImpact.Settings

open Json Checked

section Sections

variable {fs : Fields}

theorem checkIndexer_object {s : IndexSettings} : checkIndexer (.object fs) = good s ↔
    optional fs "ignore_dirs" ({} : IndexSettings).ignoreDirs (checkList checkLooseText) =
        good s.ignoreDirs ∧
      optional fs "max_file_bytes" ({} : IndexSettings).maxFileBytes (checkAbove 0) =
        good s.maxFileBytes ∧
      optional fs "workers" ({} : IndexSettings).workers (checkAtLeast 1) = good s.workers ∧
      optional fs "verify_imports_exist" ({} : IndexSettings).verifyImports checkBool =
        good s.verifyImports := by
  simp only [checkIndexer, checkObject, seq_eq_good, map_eq_good]
  constructor
  · rintro ⟨_, _, ⟨_, _, ⟨_, _, ⟨_, h₁, rfl⟩, h₂, rfl⟩, h₃, rfl⟩, h₄, rfl⟩
    exact ⟨h₁, h₂, h₃, h₄⟩
  · rintro ⟨h₁, h₂, h₃, h₄⟩
    exact ⟨_, _, ⟨_, _, ⟨_, _, ⟨_, h₁, rfl⟩, h₂, rfl⟩, h₃, rfl⟩, h₄, rfl⟩

theorem checkTests_object {s : TestSettings} : checkTests (.object fs) = good s ↔
    optional fs "test_dirs" ({} : TestSettings).testDirs (checkList checkLooseText) =
        good s.testDirs ∧
      optional fs "max_listing_depth" ({} : TestSettings).maxListingDepth (checkAtLeast 0) =
        good s.maxListingDepth ∧
      optional fs "min_mention_length" ({} : TestSettings).minMentionLength (checkAtLeast 1) =
        good s.minMentionLength := by
  simp only [checkTests, checkObject, seq_eq_good, map_eq_good]
  constructor
  · rintro ⟨_, _, ⟨_, _, ⟨_, h₁, rfl⟩, h₂, rfl⟩, h₃, rfl⟩
    exact ⟨h₁, h₂, h₃⟩
  · rintro ⟨h₁, h₂, h₃⟩
    exact ⟨_, _, ⟨_, _, ⟨_, h₁, rfl⟩, h₂, rfl⟩, h₃, rfl⟩

theorem checkImpact_object {s : ImpactSettings} : checkImpact (.object fs) = good s ↔
    optional fs "max_depth" ({} : ImpactSettings).maxDepth (checkAtLeast 0) = good s.maxDepth := by
  simp only [checkImpact, checkObject, map_eq_good]
  constructor
  · rintro ⟨_, h, rfl⟩
    exact h
  · intro h
    exact ⟨_, h, rfl⟩

theorem checkDiff_object {s : DiffSettings} : checkDiff (.object fs) = good s ↔
    optional fs "default_base" ({} : DiffSettings).defaultBase checkLooseText =
        good s.defaultBase ∧
      optional fs "max_diff_bytes" ({} : DiffSettings).maxDiffBytes (checkAbove 0) =
        good s.maxDiffBytes ∧
      optional fs "max_content_files" ({} : DiffSettings).maxContentFiles (checkAtLeast 0) =
        good s.maxContentFiles ∧
      optional fs "max_content_bytes" ({} : DiffSettings).maxContentBytes (checkAbove 0) =
        good s.maxContentBytes ∧
      optional fs "max_commit_messages" ({} : DiffSettings).maxCommitMessages (checkAtLeast 0) =
        good s.maxCommitMessages := by
  simp only [checkDiff, checkObject, seq_eq_good, map_eq_good]
  constructor
  · rintro ⟨_, _, ⟨_, _, ⟨_, _, ⟨_, _, ⟨_, h₁, rfl⟩, h₂, rfl⟩, h₃, rfl⟩, h₄, rfl⟩, h₅, rfl⟩
    exact ⟨h₁, h₂, h₃, h₄, h₅⟩
  · rintro ⟨h₁, h₂, h₃, h₄, h₅⟩
    exact ⟨_, _, ⟨_, _, ⟨_, _, ⟨_, _, ⟨_, h₁, rfl⟩, h₂, rfl⟩, h₃, rfl⟩, h₄, rfl⟩, h₅, rfl⟩

theorem checkRisk_object {s : RiskSettings} : checkRisk (.object fs) = good s ↔
    optional fs "rules_file" ({} : RiskSettings).rulesFile (checkOptional checkLooseText) =
        good s.rulesFile ∧
      optional fs "scan_diff" ({} : RiskSettings).scanDiff checkBool = good s.scanDiff := by
  simp only [checkRisk, checkObject, seq_eq_good, map_eq_good]
  constructor
  · rintro ⟨_, _, ⟨_, h₁, rfl⟩, h₂, rfl⟩
    exact ⟨h₁, h₂⟩
  · rintro ⟨h₁, h₂⟩
    exact ⟨_, _, ⟨_, h₁, rfl⟩, h₂, rfl⟩

theorem checkFields_eq_good {s : Settings} : checkFields fs = good s ↔
    optional fs "indexer" {} checkIndexer = good s.indexer ∧
      optional fs "tests" {} checkTests = good s.tests ∧
      optional fs "impact" {} checkImpact = good s.impact ∧
      optional fs "diff" {} checkDiff = good s.diff ∧
      optional fs "risk" {} checkRisk = good s.risk := by
  simp only [checkFields, seq_eq_good, map_eq_good]
  constructor
  · rintro ⟨_, _, ⟨_, _, ⟨_, _, ⟨_, _, ⟨_, h₁, rfl⟩, h₂, rfl⟩, h₃, rfl⟩, h₄, rfl⟩, h₅, rfl⟩
    exact ⟨h₁, h₂, h₃, h₄, h₅⟩
  · rintro ⟨h₁, h₂, h₃, h₄, h₅⟩
    exact ⟨_, _, ⟨_, _, ⟨_, _, ⟨_, _, ⟨_, h₁, rfl⟩, h₂, rfl⟩, h₃, rfl⟩, h₄, rfl⟩, h₅, rfl⟩

end Sections

section Limits

variable {fs : Fields} {name : String} {least absent n : Int}

theorem optional_above (h : optional fs name absent (checkAbove least) = good n)
    (habsent : least < absent) : least < n :=
  optional_ensures h habsent fun _ _ hv => of_decide_eq_true (ensure_eq_good.mp hv).2

theorem optional_atLeast (h : optional fs name absent (checkAtLeast least) = good n)
    (habsent : least ≤ absent) : least ≤ n :=
  optional_ensures h habsent fun _ _ hv => of_decide_eq_true (ensure_eq_good.mp hv).2

theorem within_checkIndexer {v : Json} {s : IndexSettings} (h : checkIndexer v = good s) :
    0 < s.maxFileBytes ∧ 1 ≤ s.workers := by
  obtain ⟨fs, rfl, -⟩ := checkObject_eq_good.mp h
  obtain ⟨-, hbytes, hworkers, -⟩ := checkIndexer_object.mp h
  exact ⟨optional_above hbytes (by decide), optional_atLeast hworkers (by decide)⟩

theorem within_checkTests {v : Json} {s : TestSettings} (h : checkTests v = good s) :
    0 ≤ s.maxListingDepth ∧ 1 ≤ s.minMentionLength := by
  obtain ⟨fs, rfl, -⟩ := checkObject_eq_good.mp h
  obtain ⟨-, hdepth, hlength⟩ := checkTests_object.mp h
  exact ⟨optional_atLeast hdepth (by decide), optional_atLeast hlength (by decide)⟩

theorem within_checkImpact {v : Json} {s : ImpactSettings} (h : checkImpact v = good s) :
    0 ≤ s.maxDepth := by
  obtain ⟨fs, rfl, -⟩ := checkObject_eq_good.mp h
  exact optional_atLeast (checkImpact_object.mp h) (by decide)

theorem within_checkDiff {v : Json} {s : DiffSettings} (h : checkDiff v = good s) :
    0 < s.maxDiffBytes ∧ 0 ≤ s.maxContentFiles ∧ 0 < s.maxContentBytes ∧
      0 ≤ s.maxCommitMessages := by
  obtain ⟨fs, rfl, -⟩ := checkObject_eq_good.mp h
  obtain ⟨-, hdiff, hfiles, hbytes, hmessages⟩ := checkDiff_object.mp h
  exact ⟨optional_above hdiff (by decide), optional_atLeast hfiles (by decide),
    optional_above hbytes (by decide), optional_atLeast hmessages (by decide)⟩

theorem withinLimits_of_check {v : Json} {s : Settings} (h : check v = good s) :
    s.WithinLimits := by
  obtain ⟨fs, rfl, hfields⟩ := checkObject_eq_good.mp h
  obtain ⟨hindexer, htests, himpact, hdiff, -⟩ := checkFields_eq_good.mp hfields
  have hindexer := optional_ensures (P := fun s => 0 < s.maxFileBytes ∧ 1 ≤ s.workers)
    hindexer (by decide) fun _ _ => within_checkIndexer
  have htests := optional_ensures (P := fun s => 0 ≤ s.maxListingDepth ∧ 1 ≤ s.minMentionLength)
    htests (by decide) fun _ _ => within_checkTests
  have himpact := optional_ensures (P := fun s => 0 ≤ s.maxDepth)
    himpact (by decide) fun _ _ => within_checkImpact
  have hdiff := optional_ensures (P := fun s => 0 < s.maxDiffBytes ∧ 0 ≤ s.maxContentFiles ∧
      0 < s.maxContentBytes ∧ 0 ≤ s.maxCommitMessages)
    hdiff (by decide) fun _ _ => within_checkDiff
  exact ⟨hindexer.1, hindexer.2, htests.1, htests.2, himpact, hdiff⟩

end Limits

section Restored

variable {least n : Int}

theorem checkAbove_int : checkAbove least (.int n) = good n ↔ least < n := by
  rw [checkAbove, ensure_eq_good, checkInt_restores n, decide_eq_true_eq, and_iff_right rfl]

theorem checkAtLeast_int : checkAtLeast least (.int n) = good n ↔ least ≤ n := by
  rw [checkAtLeast, ensure_eq_good, checkInt_restores n, decide_eq_true_eq, and_iff_right rfl]

theorem checkList_looseTexts (xs : List LooseText) :
    checkList checkLooseText (looseTexts xs) = good xs :=
  checkLooseText_restores.list xs

theorem checkOptional_looseText (o : Option LooseText) :
    checkOptional checkLooseText (match o with | some f => .text f | none => .null) = good o := by
  cases o <;> rfl

/-- Settings come back out of what is written for them exactly where they are within the limits. -/
theorem check_toJson {s : Settings} : check s.toJson = good s ↔ s.WithinLimits := by
  rw [check, toJson, checkObject, checkFields_eq_good]
  simp [Json.optional, named?_cons, checkIndexer_object, checkTests_object, checkImpact_object,
    checkDiff_object, checkRisk_object, checkList_looseTexts,
    checkAbove_int, checkAtLeast_int, checkBool_restores _, checkLooseText_restores _,
    WithinLimits, and_assoc]
  intros
  exact checkOptional_looseText s.risk.rulesFile

end Restored

end ChangeImpact.Settings

/-!
## Settings that a text can spell

The settings made of a spellable value are spellable themselves: no text in them has a high
surrogate directly before a low one, and no integer is too long to be read. What is written for
such settings is read back as it was.
-/

namespace ChangeImpact

open Json Checked

def IndexSettings.IsSpellable (s : IndexSettings) : Prop :=
  (∀ d ∈ s.ignoreDirs, Unpaired d.points) ∧ Text.IsReadable s.maxFileBytes.natAbs ∧
    Text.IsReadable s.workers.natAbs

def TestSettings.IsSpellable (s : TestSettings) : Prop :=
  (∀ d ∈ s.testDirs, Unpaired d.points) ∧ Text.IsReadable s.maxListingDepth.natAbs ∧
    Text.IsReadable s.minMentionLength.natAbs

def ImpactSettings.IsSpellable (s : ImpactSettings) : Prop := Text.IsReadable s.maxDepth.natAbs

def DiffSettings.IsSpellable (s : DiffSettings) : Prop :=
  Unpaired s.defaultBase.points ∧ Text.IsReadable s.maxDiffBytes.natAbs ∧
    Text.IsReadable s.maxContentFiles.natAbs ∧ Text.IsReadable s.maxContentBytes.natAbs ∧
    Text.IsReadable s.maxCommitMessages.natAbs

def RiskSettings.IsSpellable (s : RiskSettings) : Prop := ∀ f ∈ s.rulesFile, Unpaired f.points

namespace Settings

structure IsSpellable (s : Settings) : Prop where
  indexer : s.indexer.IsSpellable
  tests : s.tests.IsSpellable
  impact : s.impact.IsSpellable
  diff : s.diff.IsSpellable
  risk : s.risk.IsSpellable

theorem isReadable_default {n : Int} (h : n.natAbs < 1000000) : Text.IsReadable n.natAbs :=
  Text.isReadable_of_lt (k := 6) h (by decide)

theorem isSpellable_default : ({} : Settings).IsSpellable where
  indexer := ⟨by simp, isReadable_default (by decide), isReadable_default (by decide)⟩
  tests := ⟨by simp, isReadable_default (by decide), isReadable_default (by decide)⟩
  impact := isReadable_default (by decide)
  diff := ⟨unpaired_ofString _, isReadable_default (by decide), isReadable_default (by decide),
    isReadable_default (by decide), isReadable_default (by decide)⟩
  risk := by simp [RiskSettings.IsSpellable]

section Checks

theorem checkAbove_keeps (least : Int) :
    (checkAbove least).Keeps fun n => Text.IsReadable n.natAbs := fun v n hv h =>
  checkInt_keeps v n hv (ensure_eq_good.mp h).1

theorem checkAtLeast_keeps (least : Int) :
    (checkAtLeast least).Keeps fun n => Text.IsReadable n.natAbs := fun v n hv h =>
  checkInt_keeps v n hv (ensure_eq_good.mp h).1

theorem checkIndexer_keeps : checkIndexer.Keeps IndexSettings.IsSpellable := by
  intro v s hv h
  obtain ⟨fs, rfl, -⟩ := checkObject_eq_good.mp h
  have hfs := isSpellable_object.mp hv
  obtain ⟨hdefault, hdefaultBytes, hdefaultWorkers⟩ := isSpellable_default.indexer
  obtain ⟨hdirs, hbytes, hworkers, -⟩ := checkIndexer_object.mp h
  exact ⟨checkLooseText_keeps.list.optional hfs hdefault hdirs,
    (checkAbove_keeps 0).optional hfs hdefaultBytes hbytes,
    (checkAtLeast_keeps 1).optional hfs hdefaultWorkers hworkers⟩

theorem checkTests_keeps : checkTests.Keeps TestSettings.IsSpellable := by
  intro v s hv h
  obtain ⟨fs, rfl, -⟩ := checkObject_eq_good.mp h
  have hfs := isSpellable_object.mp hv
  obtain ⟨hdefault, hdefaultDepth, hdefaultLength⟩ := isSpellable_default.tests
  obtain ⟨hdirs, hdepth, hlength⟩ := checkTests_object.mp h
  exact ⟨checkLooseText_keeps.list.optional hfs hdefault hdirs,
    (checkAtLeast_keeps 0).optional hfs hdefaultDepth hdepth,
    (checkAtLeast_keeps 1).optional hfs hdefaultLength hlength⟩

theorem checkImpact_keeps : checkImpact.Keeps ImpactSettings.IsSpellable := by
  intro v s hv h
  obtain ⟨fs, rfl, -⟩ := checkObject_eq_good.mp h
  exact (checkAtLeast_keeps 0).optional (isSpellable_object.mp hv) isSpellable_default.impact
    (checkImpact_object.mp h)

theorem checkDiff_keeps : checkDiff.Keeps DiffSettings.IsSpellable := by
  intro v s hv h
  obtain ⟨fs, rfl, -⟩ := checkObject_eq_good.mp h
  have hfs := isSpellable_object.mp hv
  obtain ⟨hdefault, hdefaultDiff, hdefaultFiles, hdefaultBytes, hdefaultMessages⟩ :=
    isSpellable_default.diff
  obtain ⟨hbase, hdiff, hfiles, hbytes, hmessages⟩ := checkDiff_object.mp h
  exact ⟨checkLooseText_keeps.optional hfs hdefault hbase,
    (checkAbove_keeps 0).optional hfs hdefaultDiff hdiff,
    (checkAtLeast_keeps 0).optional hfs hdefaultFiles hfiles,
    (checkAbove_keeps 0).optional hfs hdefaultBytes hbytes,
    (checkAtLeast_keeps 0).optional hfs hdefaultMessages hmessages⟩

theorem checkRisk_keeps : checkRisk.Keeps RiskSettings.IsSpellable := by
  intro v s hv h
  obtain ⟨fs, rfl, -⟩ := checkObject_eq_good.mp h
  exact checkLooseText_keeps.orNull.optional (isSpellable_object.mp hv) isSpellable_default.risk
    (checkRisk_object.mp h).1

theorem check_keeps : check.Keeps IsSpellable := by
  intro v s hv h
  obtain ⟨fs, rfl, hfields⟩ := checkObject_eq_good.mp h
  have hfs := isSpellable_object.mp hv
  obtain ⟨hindexer, htests, himpact, hdiff, hrisk⟩ := checkFields_eq_good.mp hfields
  exact ⟨checkIndexer_keeps.optional hfs isSpellable_default.indexer hindexer,
    checkTests_keeps.optional hfs isSpellable_default.tests htests,
    checkImpact_keeps.optional hfs isSpellable_default.impact himpact,
    checkDiff_keeps.optional hfs isSpellable_default.diff hdiff,
    checkRisk_keeps.optional hfs isSpellable_default.risk hrisk⟩

end Checks

section Written

variable {nesting : Nat} {s : Settings}

theorem spellsText_lenient {t : LooseText} :
    (Dialect.lenient nesting).SpellsText t ↔ Unpaired t.points :=
  and_iff_left nofun

theorem isWritable_looseTexts {xs : List LooseText} (h : ∀ x ∈ xs, Unpaired x.points) :
    IsWritable (.lenient nesting) (looseTexts xs) :=
  isWritable_list.mpr (List.forall_mem_map.mpr fun x hx =>
    isWritable_text.mpr (spellsText_lenient.mpr (h x hx)))

theorem isSpellable_looseTexts {xs : List LooseText} (h : ∀ x ∈ xs, Unpaired x.points) :
    Json.IsSpellable (looseTexts xs) :=
  .list (List.forall_mem_map.mpr fun x hx => .text (h x hx))

theorem fits_looseTexts {d : Dialect} {room : Nat} (xs : List LooseText) :
    Fits d (room + 1) (looseTexts xs) :=
  fits_list.mpr (List.forall_mem_map.mpr fun x _ => fits_text x)

theorem isSpellable_toJson (h : s.IsSpellable) : Json.IsSpellable s.toJson := by
  obtain ⟨⟨hignored, hfile, hworkers⟩, ⟨hfolders, hlisting, hlength⟩, hdepth,
    ⟨hbase, hbytes, hfiles, hcontent, hmessages⟩, hrisk⟩ := h
  rw [ImpactSettings.IsSpellable] at hdepth
  cases hrules : s.risk.rulesFile with
  | none =>
    simp [toJson, isSpellable_object, isSpellable_looseTexts hignored,
      isSpellable_looseTexts hfolders, isSpellable_int, isSpellable_text, *]
  | some f =>
    simp [toJson, isSpellable_object, isSpellable_looseTexts hignored,
      isSpellable_looseTexts hfolders, isSpellable_int, isSpellable_text, hrisk f hrules, *]

theorem isWritable_toJson (h : s.IsSpellable) : IsWritable (.lenient nesting) s.toJson := by
  obtain ⟨⟨hignored, -⟩, ⟨hfolders, -⟩, -, ⟨hbase, -⟩, hrisk⟩ := h
  cases hrules : s.risk.rulesFile with
  | none =>
    simp [toJson, hrules, isWritable_object, isWritable_looseTexts hignored,
      isWritable_looseTexts hfolders, isWritable_text, spellsText_lenient, hbase]
  | some f =>
    simp [toJson, hrules, isWritable_object, isWritable_looseTexts hignored,
      isWritable_looseTexts hfolders, isWritable_text, spellsText_lenient, hbase, hrisk f hrules]

theorem fits_toJson {d : Dialect} {room : Nat} (h : s.IsSpellable) :
    Fits d (room + 3) s.toJson := by
  obtain ⟨⟨-, hfile, hworkers⟩, ⟨-, hlisting, hlength⟩, hdepth,
    ⟨-, hbytes, hfiles, hcontent, hmessages⟩, -⟩ := h
  rw [ImpactSettings.IsSpellable] at hdepth
  cases hrules : s.risk.rulesFile with
  | none => simp [toJson, fits_object, fits_looseTexts, fits_int, *]
  | some f => simp [toJson, fits_object, fits_looseTexts, fits_int, *]

end Written

end Settings

end ChangeImpact
