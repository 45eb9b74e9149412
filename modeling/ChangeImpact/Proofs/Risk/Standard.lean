import ChangeImpact.Proofs.Change.Readable
import ChangeImpact.Proofs.Risk.PlainTexts

/-!
# The standard rules are filled in verbatim

The names in the texts of the standard rules have values wherever a text is rendered. So nothing
that a path holds can make an assessment fail or change what is written around the path. What can
fail are the numbers that the threshold rules write, if they have too many digits, and those of a
diff.
-/

namespace ChangeImpact.Risk

open Template (Value Verbatim)

section Renderings

variable {s : Subject}

theorem lookup_pathValues (file files consumers : String) (count : Nat) :
    ∀ name ∈ ["file", "files", "consumers"],
      ∃ text, (Subject.pathValues file files count consumers).lookup name = some (.text text) := by
  simp only [List.forall_mem_cons]
  exact ⟨⟨_, rfl⟩, ⟨_, rfl⟩, ⟨_, rfl⟩, List.forall_mem_nil _⟩

theorem succeeds_ofPath {rule : PathRule} (hrule : rule ∈ standardPathRules) {r : Rendering}
    (hr : r ∈ s.renderingsOfPath rule) : r.Succeeds := by
  obtain ⟨f, hf, hr⟩ := List.mem_flatMap.mp hr
  obtain ⟨htemplate, -, file, files, count, hvalues⟩ := of_mem_pathRenderings hr
  obtain ⟨text, htext, hplain⟩ :=
    exists_textOf? (standardRules_plain.1 rule hrule f hf) r.hasConsumers
  rw [← htemplate] at htext
  refine (Rendering.succeeds_iff htext hplain ?_ (List.forall_mem_nil _)).mpr
    (List.forall_mem_nil _)
  rw [hvalues]
  exact lookup_pathValues _ _ _ _

theorem lookup_text (rule : ThresholdRule) : ∀ name ∈ ["consumers", "missing"],
    ∃ text, (s.ruleValues rule).lookup name = some (.text text) := by
  simp only [List.forall_mem_cons]
  exact ⟨⟨_, rfl⟩, ⟨_, rfl⟩, List.forall_mem_nil _⟩

theorem numbersNamed_subset (metric : String) : numbersNamed metric ⊆
    ["total_lines", "files_changed", "lines_deleted", "lines_added", "value"] := by
  unfold numbersNamed
  split <;> simp

theorem lookup_number (rule : ThresholdRule) :
    ∀ name ∈ ["total_lines", "files_changed", "lines_deleted", "lines_added", "value"],
      ∃ n, (s.ruleValues rule).lookup name = some (.number n) := by
  simp only [List.forall_mem_cons]
  exact ⟨⟨_, rfl⟩, ⟨_, rfl⟩, ⟨_, rfl⟩, ⟨_, rfl⟩, ⟨_, rfl⟩, List.forall_mem_nil _⟩

/-- A finding of a threshold rule can only fail by the numbers that it names. -/
theorem succeeds_ofThreshold_iff {rule : ThresholdRule} (hrule : rule ∈ standardThresholdRules)
    {f : FindingTemplate} (hf : f ∈ rule.findings) : (s.thresholdRendering rule f).Succeeds ↔
      ∀ name ∈ numbersNamed rule.metric, ∀ v, (s.ruleValues rule).lookup name = some v →
        v.IsWritten := by
  obtain ⟨text, htext, hplain⟩ := exists_textOf? (standardRules_plain.2 rule hrule f hf)
    (s.thresholdRendering rule f).hasConsumers
  exact Rendering.succeeds_iff htext hplain (lookup_text rule) fun name hname =>
    lookup_number rule name (numbersNamed_subset _ hname)

end Renderings

structure Subject.IsWritten (s : Subject) : Prop where
  lines : 500 < s.changes.linesAdded + s.changes.linesDeleted →
    Text.IsReadable (s.changes.linesAdded + s.changes.linesDeleted).natAbs
  files : Text.IsReadable s.changes.paths.length
  deletions : 50 < s.changes.linesDeleted → 2 * s.changes.linesAdded < s.changes.linesDeleted →
    Text.IsReadable s.changes.linesDeleted.natAbs ∧ Text.IsReadable s.changes.linesAdded.natAbs
  reached : Text.IsReadable (s.impact.totalAffected - s.impact.changed.length)

def IsReadableDiff (diff : Option String) : Prop :=
  ∀ text ∈ diff, ∀ group ∈ Diff.sections (Text.lines text.toList), ∀ line ∈ group.2,
    ∀ n ∈ Diff.headerNumbers line, n.length ≤ Text.digitLimit

section Assessment

variable {s : Subject} {diff : Option String}

theorem exists_warningsIn_iff :
    (∃ warnings, warningsIn diff = .ok warnings) ↔ IsReadableDiff diff := by
  cases diff with
  | none => exact iff_of_true ⟨[], rfl⟩ nofun
  | some text =>
    simp only [IsReadableDiff, Option.mem_some_iff, forall_eq',
      ← Diff.exists_read_iff_headerNumbers]
    rw [warningsIn]
    split
    next hempty =>
      obtain rfl := beq_iff_eq.mp hempty
      exact iff_of_true ⟨[], rfl⟩ ⟨[], rfl⟩
    next =>
      rw [Warning.scan]
      cases Diff.read text <;> simp [Except.map, Except.mapError]

theorem isReadable_of_le {n : Nat} (h : n ≤ 20) : Text.IsReadable n :=
  Text.isReadable_of_lt (k := 2) (Nat.lt_of_le_of_lt h (by decide)) (by decide)

theorem isWritten_iff : s.IsWritten ↔ ∀ rule ∈ standardThresholdRules, s.exceeds rule →
    ∀ name ∈ numbersNamed rule.metric, ∀ v, (s.ruleValues rule).lookup name = some v →
      v.IsWritten := by
  have hrules : (∀ rule ∈ standardThresholdRules, s.exceeds rule →
      ∀ name ∈ numbersNamed rule.metric, ∀ v, (s.ruleValues rule).lookup name = some v →
        v.IsWritten) ↔
      (500 < s.changes.linesAdded + s.changes.linesDeleted →
        (Value.number (s.changes.linesAdded + s.changes.linesDeleted)).IsWritten ∧
          (Value.number s.changes.paths.length).IsWritten) ∧
      (20 < (s.changes.paths.length : Int) → (Value.number s.changes.paths.length).IsWritten) ∧
      ((50 < if 2 * s.changes.linesAdded < s.changes.linesDeleted then s.changes.linesDeleted
          else 0) →
        (Value.number s.changes.linesDeleted).IsWritten ∧
          (Value.number s.changes.linesAdded).IsWritten) ∧
      (15 < max 0 ((s.impact.totalAffected : Int) - s.impact.changed.length) →
        (Value.number (max 0 ((s.impact.totalAffected : Int) - s.impact.changed.length))).IsWritten)
      := by
    simp [standardThresholdRules, numbersNamed, Subject.exceeds, Subject.ruleValues,
      Subject.measure, Subject.metrics, List.lookup_cons]
  have hreached : (max 0 ((s.impact.totalAffected : Int) - s.impact.changed.length)).natAbs =
      s.impact.totalAffected - s.impact.changed.length := by omega
  rw [hrules]
  simp only [Value.IsWritten, Int.natAbs_natCast, hreached]
  constructor
  · intro h
    exact ⟨fun hlines => ⟨h.lines hlines, h.files⟩, fun _ => h.files,
      fun hnet => by split at hnet; exacts [h.deletions hnet ‹_›, absurd hnet (by decide)],
      fun _ => h.reached⟩
  · intro h
    obtain ⟨hlines, hfiles, hnet, hbeyond⟩ := h
    exact {
      lines := fun h => (hlines h).1
      files := by
        by_cases hmany : 20 < s.changes.paths.length
        exacts [hfiles (by exact_mod_cast hmany), isReadable_of_le (Nat.le_of_not_lt hmany)]
      deletions := fun hmany hshrinks => hnet (by rwa [if_pos hshrinks])
      reached := by
        by_cases hmany : 15 < s.impact.totalAffected - s.impact.changed.length
        exacts [hbeyond (by omega), isReadable_of_le (by omega)] }

theorem succeeds_standard_iff :
    (∀ r ∈ s.renderings standardRules, r.Succeeds) ↔ s.IsWritten := by
  rw [isWritten_iff]
  have hpath : ∀ rule ∈ s.firedPathRules standardRules, ∀ r ∈ s.renderingsOfPath rule,
      r.Succeeds := fun rule hrule _ hr => succeeds_ofPath (List.mem_of_mem_filter hrule) hr
  simp only [Subject.renderings, List.forall_mem_append, List.forall_mem_flatMap,
    and_iff_right hpath, Subject.firedThresholdRules, List.mem_filter, and_imp,
    Subject.renderingsOfThreshold, List.forall_mem_map]
  refine forall₂_congr fun rule hrule => imp_congr_right fun _ => ?_
  constructor
  · intro h
    obtain ⟨f, hf⟩ := List.exists_mem_of_ne_nil _ (findings_ne_nil rule hrule)
    exact (succeeds_ofThreshold_iff hrule hf).mp (h f hf)
  · exact fun h f hf => (succeeds_ofThreshold_iff hrule hf).mpr h

theorem exists_assess_standard_iff : (∃ a, assess standardRules s diff = .ok a) ↔
    s.IsWritten ∧ IsReadableDiff diff := by
  have hnumbers : ∀ rule ∈ standardRules.thresholdRules, s.isTextual rule = false := by
    simp only [standardRules, standardThresholdRules, List.forall_mem_cons]
    exact ⟨rfl, rfl, rfl, rfl, rfl, List.forall_mem_nil _⟩
  rw [exists_assess_iff, and_iff_right hnumbers, succeeds_standard_iff, exists_warningsIn_iff]

def Rendering.IsVerbatim (r : Rendering) (made : String) : Prop :=
  ∃ text, r.text? = some text ∧ Verbatim r.values text made

theorem found_standard {r : Rendering} (hr : r ∈ s.renderings standardRules) (h : r.Succeeds) :
    ∃ made, r.found = [made] ∧ r.IsVerbatim made := by
  obtain ⟨texts, numbers, hplain⟩ : ∃ texts numbers, r.template.IsPlain texts numbers := by
    rcases of_mem_renderings hr with ⟨rule, hrule, f, hf, _, hr⟩ | ⟨rule, hrule, f, hf, rfl⟩
    · rw [(of_mem_pathRenderings hr).1]
      exact ⟨_, _, standardRules_plain.1 rule hrule f hf⟩
    · exact ⟨_, _, standardRules_plain.2 rule hrule f hf⟩
  obtain ⟨text, htext, htextPlain⟩ := exists_textOf? hplain r.hasConsumers
  obtain ⟨made, hmade, hverbatim⟩ := Rendering.found_verbatim htext htextPlain h
  exact ⟨made, hmade, text, htext, hverbatim⟩

theorem forall₂_flatMap {P : Rendering → String → Prop} {rs : List Rendering}
    (h : ∀ r ∈ rs, ∃ made, r.found = [made] ∧ P r made) :
    List.Forall₂ P rs (rs.flatMap (·.found)) := by
  induction rs with
  | nil => exact .nil
  | cons r rs ih =>
    obtain ⟨⟨made, hmade, hr⟩, hrs⟩ := List.forall_mem_cons.mp h
    rw [List.flatMap_cons, hmade]
    exact .cons hr (ih hrs)

/-- With the standard rules an assessment is made exactly if the numbers can be written and those
of the diff can be read. Then each finding is its text with the values as they are, whatever they
hold. -/
theorem assess_standardRules (changes : ChangeSet) (impact : Impact)
    (coverage : Option Evidence.Coverage) (diff : Option String) :
    let s : Subject := { changes, impact, coverage }
    ((∃ a, assess standardRules s diff = .ok a) ↔ s.IsWritten ∧ IsReadableDiff diff) ∧
      ∀ a, assess standardRules s diff = .ok a → ∀ c,
        List.Forall₂ Rendering.IsVerbatim
          ((s.renderings standardRules).filter (·.template.category = c)) (a.findingsUnder c) := by
  intro s
  refine ⟨exists_assess_standard_iff, fun a ha c => ?_⟩
  obtain ⟨-, hsucceed, -⟩ := exists_assess_iff.mp ⟨a, ha⟩
  rw [findingsUnder_assess ha]
  refine forall₂_flatMap fun r hr => ?_
  have hmem := List.mem_of_mem_filter hr
  exact found_standard hmem (hsucceed r hmem)

def evenFile (n : Nat) : ChangedFile := ⟨"a.txt", n, n, .modified⟩

theorem fivefold_pow (k : Nat) :
    5 * Nat.pow 10 k < Nat.pow 10 (k + 1) ∧
      5 * Nat.pow 10 k + 5 * Nat.pow 10 k = Nat.pow 10 (k + 1) := by
  have hpos : 0 < Nat.pow 10 k := Nat.pow_pos (by decide)
  have hsucc : Nat.pow 10 (k + 1) = Nat.pow 10 k * 10 := rfl
  omega

theorem isReadable_fivefold {k : Nat} (hk : k < Text.digitLimit) :
    Text.IsReadable (5 * Nat.pow 10 k) := Text.isReadable_of_lt (fivefold_pow k).1 hk

theorem lines_evenFile (n : Nat) : let changes : ChangeSet := ⟨[evenFile n]⟩
    changes.linesAdded + changes.linesDeleted = (n + n : Nat) := by
  simp [ChangeSet.linesAdded, ChangeSet.linesDeleted, evenFile]

theorem not_isWritten_evenFile {k : Nat} (hk : Text.digitLimit ≤ k + 1) :
    ¬ Subject.IsWritten { changes := ⟨[evenFile (5 * Nat.pow 10 k)]⟩ } := by
  intro h
  have hthree : 3 ≤ k + 1 := Nat.le_trans (by decide) hk
  have hmany : Nat.pow 10 3 ≤ Nat.pow 10 (k + 1) := Nat.pow_le_pow_right (by decide) hthree
  have hlines := h.lines
  rw [lines_evenFile, (fivefold_pow k).2, Int.natAbs_natCast, Text.isReadable_pow_iff] at hlines
  have hlarge : 500 < Nat.pow 10 (k + 1) := Nat.lt_of_lt_of_le (by decide) hmany
  exact absurd hk (Nat.not_le.mpr (hlines (Int.ofNat_lt.mpr hlarge)))

theorem isReadable_evenFile {n : Nat} (h : Text.IsReadable n) :
    Text.IsReadable (evenFile n).additions.natAbs ∧
      Text.IsReadable (evenFile n).deletions.natAbs :=
  ⟨h, h⟩

/-- Two numbers that can be read may have a sum that cannot be written. -/
theorem not_assess_evenFile :
    let file := evenFile (5 * Nat.pow 10 (Text.digitLimit - 1))
    (Text.IsReadable file.additions.natAbs ∧ Text.IsReadable file.deletions.natAbs) ∧
      ¬ ∃ a, assess standardRules { changes := ⟨[file]⟩ } none = .ok a := by
  refine ⟨isReadable_evenFile (isReadable_fivefold (by decide)), fun h => ?_⟩
  exact not_isWritten_evenFile (by decide) (exists_assess_standard_iff.mp h).1

end Assessment

end ChangeImpact.Risk
