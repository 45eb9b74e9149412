import ChangeImpact.Proofs.Data.Entries
import ChangeImpact.Proofs.Risk.Assessed
import Mathlib.Algebra.BigOperators.Group.List.Basic

/-!
# Changes in another order

Which rules fire is told by the paths that a change touches and by its measures. The order of the
files shows in neither, so that a change is as risky in any order of its files. It may show in the
findings, whose texts name the files one after the other.
-/

namespace ChangeImpact.Risk

open Template (Value Values)

def Fired.outline (f : Fired) : Fired := { f with findings := [], critical := [] }

def PathRule.outline (r : PathRule) : Fired := ⟨r.name, r.weight, some r.area, [], []⟩

def ThresholdRule.outline (r : ThresholdRule) : Fired :=
  ⟨r.name, r.weight, r.area.filter (· != ""), [], []⟩

namespace Subject

def touches (s : Subject) (r : PathRule) : Bool := s.changes.paths.any r.fires

def exceeds (s : Subject) (r : ThresholdRule) : Bool :=
  match s.metrics.lookup r.metric with
  | some (.number value) => r.threshold < value
  | _ => false

def outlines (s : Subject) (t : RuleTable) : List Fired :=
  (t.pathRules.filter s.touches).map PathRule.outline ++
    (t.thresholdRules.filter s.exceeds).map ThresholdRule.outline

/-- The same change with its files in another order. Unless the impact is given, it is that of the
paths alone. -/
structure Reordered (s s' : Subject) : Prop where
  files : s.changes.files.Perm s'.changes.files
  impact : s.impact = s'.impact ∨
    s.impact = { changed := s.changes.paths } ∧ s'.impact = { changed := s'.changes.paths }
  coverage : s.coverage = s'.coverage
  nameLimit : s.nameLimit = s'.nameLimit

end Subject

inductive SameNumber : Value → Value → Prop
  | text (u v : String) : SameNumber (.text u) (.text v)
  | number (n : Int) : SameNumber (.number n) (.number n)

/-- Two assessments of the same risk, with the same critical files in some order. -/
structure Assessment.SameRisk (a b : Assessment) : Prop where
  score : a.score = b.score
  level : a.level = b.level
  signals : a.signals = b.signals
  areas : a.areas = b.areas
  warnings : a.warnings = b.warnings
  criticalFiles : a.criticalFiles.Perm b.criticalFiles

variable {s s' : Subject} {t : RuleTable} {diff : Option String} {a a' : Assessment}

section Outline

theorem touches_eq_not_isEmpty (rule : PathRule) :
    s.touches rule = !(s.changes.paths.filter rule.fires).isEmpty := by
  rw [Subject.touches, Bool.eq_iff_iff]
  simp

theorem outline_firePathRule {rule : PathRule} {o : Option Fired}
    (h : firePathRule s rule = .ok o) :
    o.map Fired.outline = if s.touches rule then some rule.outline else none := by
  unfold firePathRule at h
  rw [touches_eq_not_isEmpty]
  cases hnone : (s.changes.paths.filter rule.fires).isEmpty with
  | true =>
    simp only [hnone, if_true] at h
    rw [← Except.ok.inj h]
    rfl
  | false =>
    simp only [hnone, Bool.false_eq_true, if_false] at h
    obtain ⟨findings, -, rfl⟩ := map_eq_ok.mp h
    rfl

theorem outline_fireThresholdRule {rule : ThresholdRule} {o : Option Fired}
    (h : fireThresholdRule s.metrics rule = .ok o) :
    o.map Fired.outline = if s.exceeds rule then some rule.outline else none := by
  unfold fireThresholdRule at h
  unfold Subject.exceeds
  split at h
  next hnone =>
    rw [hnone, ← Except.ok.inj h]
    rfl
  next => cases h
  next value hvalue =>
    rw [hvalue]
    split at h
    next hle =>
      simp only [decide_eq_true_iff, Int.not_lt.mpr hle, if_false]
      rw [← Except.ok.inj h]
      rfl
    next hlt =>
      obtain ⟨findings, -, rfl⟩ := map_eq_ok.mp h
      simp only [decide_eq_true_iff, Int.not_le.mp hlt, if_true]
      rfl

theorem filterMap_id_map_ite {α β : Type} (p : α → Bool) (f : α → β) (l : List α) :
    (l.map fun a => if p a then some (f a) else none).filterMap id = (l.filter p).map f := by
  rw [List.filterMap_map]
  induction l with
  | nil => rfl
  | cons a l ih =>
    rw [List.filterMap_cons, ih]
    cases hp : p a <;> simp [hp]

theorem map_outline_firedRules {fired : List Fired} (h : firedRules s t = .ok fired) :
    fired.map Fired.outline = s.outlines t := by
  obtain ⟨byPath, hpath, h⟩ := bind_eq_ok.mp h
  obtain ⟨byThreshold, hthreshold, h⟩ := bind_eq_ok.mp h
  obtain rfl := Except.ok.inj h
  have hall : ∀ os : List (Option Fired),
      (os.filterMap id).map Fired.outline = (os.map (·.map Fired.outline)).filterMap id := by
    intro os
    rw [List.map_filterMap, List.filterMap_map]
    rfl
  rw [hall, List.map_append, map_of_mapM_eq_ok (fun _ _ => outline_firePathRule) hpath,
    map_of_mapM_eq_ok (fun _ _ => outline_fireThresholdRule) hthreshold, List.filterMap_append,
    filterMap_id_map_ite, filterMap_id_map_ite]
  rfl

theorem outlines_assess (h : assess t s diff = .ok a) :
    a.score = ((s.outlines t).map (·.weight)).foldr (· + ·) 0 ∧ a.level = t.levelAt a.score ∧
      a.signals = (s.outlines t).map (·.name) ∧
        a.areas = ((s.outlines t).filterMap (·.area)).eraseDups ∧
          warningsIn diff = .ok a.warnings := by
  obtain ⟨fired, hfired, warnings, hwarnings, rfl⟩ := assess_eq_ok.mp h
  rw [← map_outline_firedRules hfired, List.map_map, List.map_map, List.filterMap_map]
  exact ⟨rfl, rfl, rfl, rfl, hwarnings⟩

end Outline

namespace Subject.Reordered

variable (h : s.Reordered s')

include h

theorem mem_paths (path : String) : path ∈ s.changes.paths ↔ path ∈ s'.changes.paths := by
  simp only [ChangeSet.paths, List.mem_eraseDups]
  exact (h.files.map _).mem_iff

theorem length_paths : s.changes.paths.length = s'.changes.paths.length :=
  (perm_eraseDups fun _ => (h.files.map _).mem_iff).length_eq

theorem linesAdded : s.changes.linesAdded = s'.changes.linesAdded := by
  simp only [ChangeSet.linesAdded, ← List.sum_eq_foldr]
  exact (h.files.map _).sum_eq

theorem linesDeleted : s.changes.linesDeleted = s'.changes.linesDeleted := by
  simp only [ChangeSet.linesDeleted, ← List.sum_eq_foldr]
  exact (h.files.map _).sum_eq

theorem isEmpty : s.changes.isEmpty = s'.changes.isEmpty := h.files.isEmpty_eq

theorem totalAffected : s.impact.totalAffected = s'.impact.totalAffected := by
  rcases h.impact with heq | ⟨hs, hs'⟩
  · rw [heq]
  · rw [hs, hs']
    rfl

theorem length_changed : s.impact.changed.length = s'.impact.changed.length := by
  rcases h.impact with heq | ⟨hs, hs'⟩
  · rw [heq]
  · rw [hs, hs']
    exact h.length_paths

theorem directOf (path : String) : s.impact.directOf path = s'.impact.directOf path := by
  rcases h.impact with heq | ⟨hs, hs'⟩
  · rw [heq]
  · rw [hs, hs']
    rfl

theorem metrics :
    List.Forall₂ (fun v w => v.1 = w.1 ∧ SameNumber v.2 w.2) s.metrics s'.metrics := by
  simp only [Subject.metrics, h.length_paths, h.linesAdded, h.linesDeleted, h.isEmpty,
    h.totalAffected, h.length_changed, h.coverage, List.forall₂_cons, SameNumber.number,
    SameNumber.text, List.Forall₂.nil, and_self]

theorem exceeds_eq (rule : ThresholdRule) : s.exceeds rule = s'.exceeds rule := by
  have hsame := lookup_rel h.metrics rule.metric
  unfold exceeds
  generalize s.metrics.lookup rule.metric = v at hsame ⊢
  generalize s'.metrics.lookup rule.metric = w at hsame ⊢
  cases hsame with
  | none => rfl
  | some hvalue =>
    cases hvalue with
    | text => rfl
    | number => rfl

theorem touches_eq (rule : PathRule) : s.touches rule = s'.touches rule := by
  rw [touches, touches, Bool.eq_iff_iff, List.any_eq_true, List.any_eq_true]
  simp only [h.mem_paths]

theorem outlines_eq (t : RuleTable) : s.outlines t = s'.outlines t := by
  simp only [outlines, funext h.touches_eq, funext h.exceeds_eq]

end Subject.Reordered

theorem perm_criticalFiles (h : s.Reordered s') (ha : assess t s diff = .ok a)
    (ha' : assess t s' diff = .ok a') : a.criticalFiles.Perm a'.criticalFiles := by
  rw [criticalFiles_assess ha, criticalFiles_assess ha']
  refine perm_eraseDups fun path => ?_
  simp only [Subject.markedBy, List.mem_flatMap, List.mem_ite_nil_right, List.mem_filter,
    h.mem_paths, h.directOf]

/-- A change is as risky in any order of its files. -/
theorem assess_reordered (t : RuleTable) (s s' : Subject) (diff : Option String)
    (a a' : Assessment) (h : s.Reordered s') (ha : assess t s diff = .ok a)
    (ha' : assess t s' diff = .ok a') : a.SameRisk a' := by
  obtain ⟨hscore, hlevel, hsignals, hareas, hwarnings⟩ := outlines_assess ha
  obtain ⟨hscore', hlevel', hsignals', hareas', hwarnings'⟩ := outlines_assess ha'
  rw [h.outlines_eq] at hscore hsignals hareas
  have hsame : a.score = a'.score := hscore.trans hscore'.symm
  exact {
    score := hsame
    level := by rw [hlevel, hlevel', hsame]
    signals := hsignals.trans hsignals'.symm
    areas := hareas.trans hareas'.symm
    warnings := Except.ok.inj (hwarnings.symm.trans hwarnings')
    criticalFiles := perm_criticalFiles h ha ha' }

def authChange (files : List ChangedFile) : Subject :=
  { changes := ⟨files⟩
    impact :=
      { changed := ["auth/a.py", "auth/b.py"], direct := [("auth/b.py", ["c.py"])]
        allAffected := ["auth/a.py", "auth/b.py", "c.py"] } }

def authFiles : List ChangedFile := [⟨"auth/a.py", 0, 5, .modified⟩, ⟨"auth/b.py", 2, 0, .modified⟩]

def authTable : RuleTable :=
  { pathRules := [⟨"auth", "login", ["auth/"], 4, true, [⟨.security, "First {file}", false, none⟩]⟩]
    thresholdRules := [⟨"shrinking", "net_deletions", 4, 2, some "size", []⟩] }

theorem assess_reordered_auth :
    (authChange authFiles).Reordered (authChange authFiles.reverse) ∧ ∃ a a',
      assess authTable (authChange authFiles) none = .ok a ∧
        assess authTable (authChange authFiles.reverse) none = .ok a' ∧
          a.findings = [(.security, ["First auth/a.py"])] ∧
            a'.findings = [(.security, ["First auth/b.py"])] ∧ a.SameRisk a' := by
  have horder : (authChange authFiles).Reordered (authChange authFiles.reverse) :=
    ⟨(List.reverse_perm _).symm, .inl rfl, rfl, rfl⟩
  have hfirst : (assess authTable (authChange authFiles) none).map (·.findings) =
      .ok [(.security, ["First auth/a.py"])] := by decide +kernel
  have hsecond : (assess authTable (authChange authFiles.reverse) none).map (·.findings) =
      .ok [(.security, ["First auth/b.py"])] := by decide +kernel
  obtain ⟨a, ha, hfindings⟩ := map_eq_ok.mp hfirst
  obtain ⟨a', ha', hfindings'⟩ := map_eq_ok.mp hsecond
  exact ⟨horder, a, a', ha, ha', hfindings, hfindings',
    assess_reordered _ _ _ _ _ _ horder ha ha'⟩

end ChangeImpact.Risk
