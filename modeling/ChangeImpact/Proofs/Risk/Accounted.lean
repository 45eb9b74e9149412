import ChangeImpact.Proofs.Risk.Reordered

/-!
# What an assessment accounts for

Signals, score, areas and critical files all tell of the same rules: the path rules that some
changed path lets fire and, behind them, the threshold rules whose measure is known and exceeded.
Each rule counts as often as it stands in the table; an area or a file is listed once.
-/

namespace ChangeImpact.Risk

structure ListsOnce (l items : List String) : Prop where
  mem : ∀ x, x ∈ items ↔ x ∈ l
  nodup : items.Nodup
  ordered : items.Pairwise fun x y => l.idxOf x < l.idxOf y

theorem listsOnce_eraseDups (l : List String) : ListsOnce l l.eraseDups where
  mem _ := List.mem_eraseDups
  nodup := nodup_eraseDups l
  ordered := pairwise_idxOf_eraseDups l

namespace Subject

def firedPathRules (s : Subject) (t : RuleTable) : List PathRule := t.pathRules.filter s.touches

def firedThresholdRules (s : Subject) (t : RuleTable) : List ThresholdRule :=
  t.thresholdRules.filter s.exceeds

def firedAreas (s : Subject) (t : RuleTable) : List String :=
  (s.firedPathRules t).map (·.area) ++
    (s.firedThresholdRules t).filterMap fun r => r.area.filter (· != "")

def IsCritical (s : Subject) (t : RuleTable) (file : String) : Prop :=
  ∃ rule ∈ t.pathRules, rule.critical ∧
    ∃ p ∈ s.changes.paths, rule.fires p ∧ (file = p ∨ file ∈ s.impact.directOf p)

end Subject

/-- The assessment tells of the rules that fire, and of no others. -/
structure Assessment.AccountsFor (a : Assessment) (s : Subject) (t : RuleTable) : Prop where
  signals : a.signals =
    (s.firedPathRules t).map (·.name) ++ (s.firedThresholdRules t).map (·.name)
  score : a.score = ((s.firedPathRules t).map (·.weight) ++
    (s.firedThresholdRules t).map (·.weight)).foldr (· + ·) 0
  areas : ListsOnce (s.firedAreas t) a.areas
  nodup_criticalFiles : a.criticalFiles.Nodup
  criticalFiles : ∀ file, file ∈ a.criticalFiles ↔ s.IsCritical t file

variable {s : Subject} {t : RuleTable} {diff : Option String} {a : Assessment}

section Outlines

theorem map_name_outlines : (s.outlines t).map (·.name) =
    (s.firedPathRules t).map (·.name) ++ (s.firedThresholdRules t).map (·.name) := by
  rw [Subject.outlines, List.map_append, List.map_map, List.map_map]
  rfl

theorem map_weight_outlines : (s.outlines t).map (·.weight) =
    (s.firedPathRules t).map (·.weight) ++ (s.firedThresholdRules t).map (·.weight) := by
  rw [Subject.outlines, List.map_append, List.map_map, List.map_map]
  rfl

theorem filterMap_area_outlines : (s.outlines t).filterMap (·.area) = s.firedAreas t := by
  have hpath : ∀ r : PathRule, r.outline.area = some r.area := fun _ => rfl
  rw [Subject.outlines, List.filterMap_append, List.filterMap_map, List.filterMap_map,
    Subject.firedAreas, ← List.filterMap_eq_map]
  rfl

end Outlines

theorem mem_signals (h : assess t s diff = .ok a) {name : String} : name ∈ a.signals ↔
    (∃ rule ∈ t.pathRules, (∃ p ∈ s.changes.paths, rule.fires p) ∧ rule.name = name) ∨
      ∃ rule ∈ t.thresholdRules, s.exceeds rule ∧ rule.name = name := by
  obtain ⟨-, -, hsignals, -, -⟩ := outlines_assess h
  rw [hsignals, map_name_outlines, List.mem_append]
  simp only [Subject.firedPathRules, Subject.firedThresholdRules, Subject.touches, List.mem_map,
    List.mem_filter, List.any_eq_true, and_assoc]

/-- Every output of an assessment is told by the rules that fire. -/
theorem assess_accounts (t : RuleTable) (s : Subject) (diff : Option String) (a : Assessment)
    (h : assess t s diff = .ok a) : a.AccountsFor s t := by
  obtain ⟨hscore, -, hsignals, hareas, -⟩ := outlines_assess h
  exact {
    signals := by rw [hsignals, map_name_outlines]
    score := by rw [hscore, map_weight_outlines]
    areas := by
      rw [hareas, filterMap_area_outlines]
      exact listsOnce_eraseDups _
    nodup_criticalFiles := by
      rw [criticalFiles_assess h]
      exact nodup_eraseDups _
    criticalFiles := fun _ => mem_criticalFiles h }

def overlapping : RuleTable :=
  { pathRules := [⟨"login", "Access", ["login"], 4, true, []⟩,
      ⟨"docs", "Text", [".md"], 2, true, []⟩, ⟨"python", "Access", [".py"], -1, false, []⟩]
    thresholdRules := [⟨"large", "total_lines", 500, 3, some "Size", []⟩,
      ⟨"bogus", "bogus", 0, 5, some "Bogus", []⟩, ⟨"wide", "affected", 1, 2, some "Access", []⟩,
      ⟨"deleted", "lines_deleted", 0, 1, some "", []⟩] }

def loginChange : Subject :=
  { changes := ⟨[⟨"Login.py", 400, 0, .modified⟩, ⟨"app.py", 0, 1, .modified⟩,
      ⟨"Login.py", 100, 0, .modified⟩]⟩
    impact :=
      { changed := ["Login.py", "app.py"], direct := [("Login.py", ["app.py", "Login.py"])]
        allAffected := ["Login.py", "app.py"] } }

theorem assess_accounts_login : ∃ a, assess overlapping loginChange none = .ok a ∧
    a.AccountsFor loginChange overlapping ∧
      a.signals = ["login", "python", "large", "wide", "deleted"] ∧ a.score = 9 ∧
        a.areas = ["Access", "Size"] ∧ a.criticalFiles = ["Login.py", "app.py"] := by
  have hmade : (assess overlapping loginChange none).map
      (fun a => (a.signals, a.score, a.areas, a.criticalFiles)) =
      .ok (["login", "python", "large", "wide", "deleted"], 9, ["Access", "Size"],
        ["Login.py", "app.py"]) := by decide +kernel
  obtain ⟨a, ha, houtputs⟩ := map_eq_ok.mp hmade
  simp only [Prod.mk.injEq] at houtputs
  exact ⟨a, ha, assess_accounts _ _ _ _ ha, houtputs⟩

end ChangeImpact.Risk
