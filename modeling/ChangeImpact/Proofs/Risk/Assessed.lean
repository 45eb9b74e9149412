import ChangeImpact.Proofs.Data.Results
import ChangeImpact.Risk.Assess

/-!
# The files most worth a test

A critical rule marks the changed files on which it fires, each with the files that import it.
The critical files of an assessment are what the path rules mark, one after the other, and each
file stands where it is marked first.
-/

namespace ChangeImpact.Risk

def Subject.markedBy (s : Subject) (rule : PathRule) : List String :=
  if rule.critical then
    (s.changes.paths.filter rule.fires).flatMap fun path => path :: s.impact.directOf path
  else []

def criticalOf (o : Option Fired) : List String := o.toList.flatMap (·.critical)

variable {s : Subject} {t : RuleTable} {diff : Option String} {a : Assessment}

theorem criticalOf_firePathRule {rule : PathRule} {o : Option Fired}
    (h : firePathRule s rule = .ok o) : criticalOf o = s.markedBy rule := by
  by_cases hnone : (s.changes.paths.filter rule.fires).isEmpty
  · simp only [firePathRule, hnone, if_true] at h
    rw [← Except.ok.inj h, Subject.markedBy, List.isEmpty_iff.mp hnone]
    simp [criticalOf]
  · simp only [firePathRule, hnone] at h
    obtain ⟨findings, -, rfl⟩ := map_eq_ok.mp h
    simp [criticalOf, Subject.markedBy]

theorem criticalOf_fireThresholdRule {metrics : Template.Values} {rule : ThresholdRule}
    {o : Option Fired} (h : fireThresholdRule metrics rule = .ok o) : criticalOf o = [] := by
  unfold fireThresholdRule at h
  split at h
  next => rw [← Except.ok.inj h]; rfl
  next => cases h
  next =>
    split at h
    next => rw [← Except.ok.inj h]; rfl
    next =>
      obtain ⟨findings, -, rfl⟩ := map_eq_ok.mp h
      rfl

theorem flatMap_critical_firedRules {fired : List Fired} (h : firedRules s t = .ok fired) :
    fired.flatMap (·.critical) = t.pathRules.flatMap s.markedBy := by
  obtain ⟨byPath, hpath, h⟩ := bind_eq_ok.mp h
  obtain ⟨byThreshold, hthreshold, h⟩ := bind_eq_ok.mp h
  obtain rfl := Except.ok.inj h
  have hall : ∀ os : List (Option Fired),
      (os.filterMap id).flatMap (·.critical) = (os.map criticalOf).flatten := by
    intro os
    rw [List.filterMap_eq_flatMap_toList, List.flatMap_assoc]
    rfl
  rw [hall, List.map_append, map_of_mapM_eq_ok (fun _ _ => criticalOf_firePathRule) hpath,
    map_of_mapM_eq_ok (fun _ _ => criticalOf_fireThresholdRule) hthreshold]
  simp [List.flatMap_def]

def warningsIn (diff : Option String) : Except AssessError (List Warning) :=
  match diff with
  | some text => if text == "" then pure [] else (Warning.scan text).mapError .diff
  | none => pure []

def assessed (t : RuleTable) (fired : List Fired) (warnings : List Warning) : Assessment :=
  let score := (fired.map (·.weight)).foldr (· + ·) 0
  { level := t.levelAt score
    score
    signals := fired.map (·.name)
    areas := (fired.filterMap (·.area)).eraseDups
    findings := (Category.all.map fun c => (c, findingsIn c fired)).filter (!·.2.isEmpty)
    warnings
    criticalFiles := (fired.flatMap (·.critical)).eraseDups
    rulesVersion := t.version }

theorem assess_eq_ok : assess t s diff = .ok a ↔ ∃ fired, firedRules s t = .ok fired ∧
    ∃ warnings, warningsIn diff = .ok warnings ∧ assessed t fired warnings = a := by
  have hmade : assess t s diff =
      firedRules s t >>= fun fired => warningsIn diff >>= fun warnings =>
        .ok (assessed t fired warnings) := by
    unfold assess warningsIn
    cases diff with
    | none => rfl
    | some text =>
      dsimp only
      split <;> rfl
  simp only [hmade, bind_eq_ok, Except.ok.injEq]

theorem criticalFiles_assess (h : assess t s diff = .ok a) :
    a.criticalFiles = (t.pathRules.flatMap s.markedBy).eraseDups := by
  obtain ⟨fired, hfired, warnings, -, rfl⟩ := assess_eq_ok.mp h
  rw [← flatMap_critical_firedRules hfired]
  rfl

theorem mem_criticalFiles (h : assess t s diff = .ok a) {path : String} :
    path ∈ a.criticalFiles ↔ ∃ rule ∈ t.pathRules, rule.critical ∧
      ∃ p ∈ s.changes.paths, rule.fires p ∧ (path = p ∨ path ∈ s.impact.directOf p) := by
  rw [criticalFiles_assess h]
  simp [Subject.markedBy, and_assoc]

end ChangeImpact.Risk
