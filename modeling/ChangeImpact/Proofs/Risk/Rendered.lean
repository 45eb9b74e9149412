import ChangeImpact.Proofs.Risk.Accounted

/-!
# What the findings are made of

Every rule that fires has its findings rendered: a template for all of the paths or for each of
them, with the values that belong to them. `Subject.renderings` lists what is rendered for a change,
and an assessment is made exactly if all of it can be rendered; then its findings are what the
renderings give: `exists_assess_iff` and `findingsUnder_assess`.
-/

namespace ChangeImpact.Risk

open Template (Value Values)

structure Rendering where
  template : FindingTemplate
  consumers : List String
  values : Values
  hasConsumers : Bool

def rendered (text? : Option String) (values : Values) : Except AssessError (List String) :=
  match text? with
  | none => .ok []
  | some text => (Subject.fillIn values text).map fun s => if s == "" then [] else [s]

namespace Rendering

def text? (r : Rendering) : Option String := Subject.textOf? r.template r.hasConsumers

def result (r : Rendering) : Except AssessError (List String) :=
  Subject.finding r.template r.values r.hasConsumers

def Succeeds (r : Rendering) : Prop := ∃ found, r.result = .ok found

def found (r : Rendering) : List String := r.result.toOption.getD []

theorem result_eq (r : Rendering) : r.result = rendered r.text? r.values := rfl

end Rendering

namespace Subject

def pathRenderings (s : Subject) (matched : List String) (t : FindingTemplate) : List Rendering :=
  if t.perFile then
    matched.map fun path =>
      let consumers := s.consumers [path]
      ⟨t, consumers, pathValues path path 1 (s.abridged consumers), !consumers.isEmpty⟩
  else
    let consumers := s.consumers matched
    [⟨t, consumers,
      pathValues (matched.headD "") (s.abridged matched) matched.length (s.abridged consumers),
      !consumers.isEmpty⟩]

def shrinking (s : Subject) : List String :=
  (s.changes.files.filter fun f => f.additions < f.deletions).map (·.path)

def measure (s : Subject) (r : ThresholdRule) : Int :=
  match s.metrics.lookup r.metric with
  | some (.number value) => value
  | _ => 0

def ruleValues (s : Subject) (r : ThresholdRule) : Values :=
  s.metrics ++ [("value", .number (s.measure r)), ("threshold", .number r.threshold)]

def isTextual (s : Subject) (r : ThresholdRule) : Bool :=
  match s.metrics.lookup r.metric with
  | some (.text _) => true
  | _ => false

def thresholdRendering (s : Subject) (r : ThresholdRule) (t : FindingTemplate) : Rendering :=
  ⟨t, s.consumers s.shrinking, s.ruleValues r, s.abridged (s.consumers s.shrinking) != ""⟩

def renderingsOfPath (s : Subject) (r : PathRule) : List Rendering :=
  r.findings.flatMap (s.pathRenderings (s.changes.paths.filter r.fires))

def renderingsOfThreshold (s : Subject) (r : ThresholdRule) : List Rendering :=
  r.findings.map (s.thresholdRendering r)

def renderings (s : Subject) (t : RuleTable) : List Rendering :=
  (s.firedPathRules t).flatMap s.renderingsOfPath ++
    (s.firedThresholdRules t).flatMap s.renderingsOfThreshold

end Subject

def foundUnder (c : Category) (rs : List Rendering) : List String :=
  (rs.filter (·.template.category = c)).flatMap (·.found)

variable {s : Subject} {t : RuleTable} {diff : Option String} {a : Assessment} {c : Category}

section Templates

theorem of_mem_pathRenderings {matched : List String} {f : FindingTemplate} {r : Rendering}
    (hr : r ∈ s.pathRenderings matched f) :
    r.template = f ∧ r.hasConsumers = !r.consumers.isEmpty ∧ ∃ file files count,
      r.values = Subject.pathValues file files count (s.abridged r.consumers) := by
  unfold Subject.pathRenderings at hr
  split at hr
  next =>
    obtain ⟨path, -, rfl⟩ := List.mem_map.mp hr
    exact ⟨rfl, rfl, _, _, _, rfl⟩
  next =>
    obtain rfl := List.mem_singleton.mp hr
    exact ⟨rfl, rfl, _, _, _, rfl⟩

theorem of_mem_renderings {r : Rendering} (hr : r ∈ s.renderings t) :
    (∃ rule ∈ t.pathRules, ∃ f ∈ rule.findings, ∃ matched, r ∈ s.pathRenderings matched f) ∨
      ∃ rule ∈ t.thresholdRules, ∃ f ∈ rule.findings, r = s.thresholdRendering rule f := by
  rcases List.mem_append.mp hr with hr | hr
  · obtain ⟨rule, hrule, hr⟩ := List.mem_flatMap.mp hr
    obtain ⟨f, hf, hr⟩ := List.mem_flatMap.mp hr
    exact .inl ⟨rule, List.mem_of_mem_filter hrule, f, hf, _, hr⟩
  · obtain ⟨rule, hrule, hr⟩ := List.mem_flatMap.mp hr
    obtain ⟨f, hf, rfl⟩ := List.mem_map.mp hr
    exact .inr ⟨rule, List.mem_of_mem_filter hrule, f, hf, rfl⟩

theorem pathFindings_eq (f : FindingTemplate) (matched : List String) : s.pathFindings f matched =
    ((s.pathRenderings matched f).mapM Rendering.result).map List.flatten := by
  unfold Subject.pathFindings Subject.pathRenderings
  split
  next =>
    rw [List.mapM_map]
    rfl
  next =>
    have hone : ∀ r : Rendering, ([r].mapM Rendering.result).map List.flatten = r.result := by
      intro r
      rw [List.mapM_cons, List.mapM_nil]
      cases hr : r.result <;> simp [bind, Except.bind, pure, Except.pure, Except.map]
    dsimp only
    rw [hone]
    rfl

structure Renders (find : FindingTemplate → Except AssessError (List String))
    (renderings : FindingTemplate → List Rendering) : Prop where
  template : ∀ f, ∀ r ∈ renderings f, r.template = f
  eq_ok : ∀ f texts, find f = .ok texts ↔
    (∀ r ∈ renderings f, r.Succeeds) ∧ texts = (renderings f).flatMap (·.found)

theorem renders_pathFindings (s : Subject) (matched : List String) :
    Renders (s.pathFindings · matched) (s.pathRenderings matched) where
  template _ _ hr := (of_mem_pathRenderings hr).1
  eq_ok f texts := by
    rw [pathFindings_eq, map_eq_ok]
    simp only [mapM_eq_ok_iff []]
    constructor
    · intro h
      obtain ⟨_, ⟨hall, rfl⟩, rfl⟩ := h
      exact ⟨hall, List.flatMap_def.symm⟩
    · intro h
      obtain ⟨hall, rfl⟩ := h
      exact ⟨_, ⟨hall, rfl⟩, List.flatMap_def.symm⟩

theorem renders_finding (s : Subject) (rule : ThresholdRule) :
    Renders (fun f => (s.thresholdRendering rule f).result)
      (fun f => [s.thresholdRendering rule f]) where
  template _ _ hr := by
    obtain rfl := List.mem_singleton.mp hr
    rfl
  eq_ok f texts := by
    rw [List.forall_mem_singleton, List.flatMap_singleton, Rendering.Succeeds, Rendering.found]
    cases (s.thresholdRendering rule f).result with
    | error => simp
    | ok found => simp [Except.toOption, eq_comm]

variable {fs : List FindingTemplate} {find : FindingTemplate → Except AssessError (List String)}
  {renderings : FindingTemplate → List Rendering} {found : List (Category × List String)}

theorem gather_eq_ok : gather fs find = .ok found ↔
    (∀ f ∈ fs, ∃ texts, find f = .ok texts) ∧
      found = fs.map fun f => (f.category, (find f).toOption.getD []) := by
  rw [gather, mapM_eq_ok_iff (.breakingChange, [])]
  have hexists : ∀ f, (∃ b, (find f).map (fun texts => (f.category, texts)) = .ok b) ↔
      ∃ texts, find f = .ok texts := by
    intro f
    cases find f <;> simp [Except.map]
  simp only [hexists]
  refine and_congr_right fun hall => Eq.congr_right (List.map_congr_left fun f hf => ?_)
  obtain ⟨texts, htexts⟩ := hall f hf
  rw [htexts]
  rfl

theorem exists_gather_iff (h : Renders find renderings) :
    (∃ found, gather fs find = .ok found) ↔ ∀ r ∈ fs.flatMap renderings, r.Succeeds := by
  simp only [gather_eq_ok, exists_and_left, exists_eq, and_true, h.eq_ok, List.forall_mem_flatMap]

theorem flatMap_gather (h : Renders find renderings) (hfound : gather fs find = .ok found) :
    found.flatMap (fun (category, texts) => if category = c then texts else []) =
      foundUnder c (fs.flatMap renderings) := by
  obtain ⟨hall, rfl⟩ := gather_eq_ok.mp hfound
  rw [foundUnder, List.filter_flatMap, List.flatMap_map, List.flatMap_assoc]
  refine List.flatMap_congr fun f hf => ?_
  obtain ⟨texts, htexts⟩ := hall f hf
  have hof : ∀ r ∈ renderings f, decide (r.template.category = c) = decide (f.category = c) :=
    fun r hr => by rw [h.template f r hr]
  rw [htexts, ((h.eq_ok f texts).mp htexts).2, List.filter_congr hof]
  by_cases hc : f.category = c
  · simp [hc, Except.toOption]
  · simp [hc]

end Templates

section Rules

theorem firePathRule_eq (rule : PathRule) : firePathRule s rule =
    if s.touches rule then
      (gather rule.findings (s.pathFindings · (s.changes.paths.filter rule.fires))).map fun found =>
        some
          { name := rule.name, weight := rule.weight, area := some rule.area, findings := found
            critical := s.markedBy rule }
    else .ok none := by
  rw [touches_eq_not_isEmpty, firePathRule]
  cases (s.changes.paths.filter rule.fires).isEmpty <;> rfl

theorem lookup_consumers :
    s.metrics.lookup "consumers" = some (.text (s.abridged (s.consumers s.shrinking))) := rfl

theorem fireThresholdRule_eq (rule : ThresholdRule) : fireThresholdRule s.metrics rule =
    if s.isTextual rule then .error (.textMetric rule.metric)
    else if s.exceeds rule then
      (gather rule.findings fun f => (s.thresholdRendering rule f).result).map fun found =>
        some
          { name := rule.name, weight := rule.weight, area := rule.area.filter (· != "")
            findings := found, critical := [] }
    else .ok none := by
  unfold fireThresholdRule Subject.isTextual Subject.exceeds
  split
  next h => simp [h]
  next h => simp [h]
  next value h =>
    have hmeasure : s.measure rule = value := by rw [Subject.measure, h]
    have hconsumers : (s.metrics.lookup "consumers" != some (.text "")) =
        (s.abridged (s.consumers s.shrinking) != "") := by
      rw [lookup_consumers, Bool.eq_iff_iff, bne_iff_ne, bne_iff_ne]
      simp
    simp only [h, Bool.false_eq_true, if_false, decide_eq_true_eq]
    split
    next hle => rw [if_neg (Int.not_lt.mpr hle)]
    next hlt =>
      rw [if_pos (Int.not_le.mp hlt), hconsumers]
      simp only [Subject.thresholdRendering, Subject.ruleValues, hmeasure, Rendering.result]

def foundIn (c : Category) (o : Option Fired) : List String := findingsIn c o.toList

theorem foundIn_firePathRule {rule : PathRule} {o : Option Fired}
    (h : firePathRule s rule = .ok o) :
    foundIn c o = if s.touches rule then foundUnder c (s.renderingsOfPath rule) else [] := by
  rw [firePathRule_eq] at h
  split at h
  next hfires =>
    obtain ⟨found, hfound, rfl⟩ := map_eq_ok.mp h
    rw [if_pos hfires, Subject.renderingsOfPath,
      ← flatMap_gather (renders_pathFindings s _) hfound]
    simp [foundIn, findingsIn]
  next hfires =>
    rw [if_neg hfires, ← Except.ok.inj h]
    rfl

theorem foundIn_fireThresholdRule {rule : ThresholdRule} {o : Option Fired}
    (h : fireThresholdRule s.metrics rule = .ok o) :
    foundIn c o = if s.exceeds rule then foundUnder c (s.renderingsOfThreshold rule) else [] := by
  rw [fireThresholdRule_eq] at h
  split at h
  next => cases h
  next =>
    split at h
    next hfires =>
      obtain ⟨found, hfound, rfl⟩ := map_eq_ok.mp h
      rw [if_pos hfires, Subject.renderingsOfThreshold, List.map_eq_flatMap,
        ← flatMap_gather (renders_finding s rule) hfound]
      simp [foundIn, findingsIn]
    next hfires =>
      rw [if_neg hfires, ← Except.ok.inj h]
      rfl

theorem exists_firePathRule_iff {rule : PathRule} : (∃ o, firePathRule s rule = .ok o) ↔
    (s.touches rule → ∀ r ∈ s.renderingsOfPath rule, r.Succeeds) := by
  rw [firePathRule_eq]
  split
  next hfires =>
    rw [Subject.renderingsOfPath, ← exists_gather_iff (renders_pathFindings s _)]
    simp [map_eq_ok, hfires]
  next hfires => exact iff_of_true ⟨none, rfl⟩ fun h => absurd h hfires

theorem exists_fireThresholdRule_iff {rule : ThresholdRule} :
    (∃ o, fireThresholdRule s.metrics rule = .ok o) ↔
      s.isTextual rule = false ∧
        (s.exceeds rule → ∀ r ∈ s.renderingsOfThreshold rule, r.Succeeds) := by
  rw [fireThresholdRule_eq]
  split
  next htext => simp [htext]
  next htext =>
    rw [Bool.not_eq_true] at htext
    rw [htext, and_iff_right rfl]
    split
    next hfires =>
      rw [Subject.renderingsOfThreshold, List.map_eq_flatMap,
        ← exists_gather_iff (renders_finding s rule)]
      simp [map_eq_ok, hfires]
    next hfires => exact iff_of_true ⟨none, rfl⟩ fun h => absurd h hfires

end Rules

section Assessment

theorem exists_firedRules_iff : (∃ fired, firedRules s t = .ok fired) ↔
    (∀ rule ∈ t.thresholdRules, s.isTextual rule = false) ∧ ∀ r ∈ s.renderings t, r.Succeeds := by
  have hrules : (∃ fired, firedRules s t = .ok fired) ↔
      (∀ rule ∈ t.pathRules, ∃ o, firePathRule s rule = .ok o) ∧
        ∀ rule ∈ t.thresholdRules, ∃ o, fireThresholdRule s.metrics rule = .ok o := by
    rw [← exists_mapM_iff, ← exists_mapM_iff]
    simp only [firedRules, bind_eq_ok]
    constructor
    · intro h
      obtain ⟨_, byPath, hpath, byThreshold, hthreshold, -⟩ := h
      exact ⟨⟨byPath, hpath⟩, byThreshold, hthreshold⟩
    · intro h
      obtain ⟨⟨byPath, hpath⟩, byThreshold, hthreshold⟩ := h
      exact ⟨_, byPath, hpath, byThreshold, hthreshold, rfl⟩
  rw [hrules]
  simp only [exists_firePathRule_iff, exists_fireThresholdRule_iff, Subject.renderings,
    Subject.firedPathRules, Subject.firedThresholdRules, List.forall_mem_append,
    List.forall_mem_flatMap, List.mem_filter, forall_and, and_imp]
  tauto

/-- An assessment is made unless a measure is a text, a rendering fails or the diff cannot be
read. -/
theorem exists_assess_iff : (∃ a, assess t s diff = .ok a) ↔
    (∀ rule ∈ t.thresholdRules, s.isTextual rule = false) ∧
      (∀ r ∈ s.renderings t, r.Succeeds) ∧ ∃ warnings, warningsIn diff = .ok warnings := by
  rw [← and_assoc, ← exists_firedRules_iff]
  simp only [assess_eq_ok]
  constructor
  · intro h
    obtain ⟨_, fired, hfired, warnings, hwarnings, -⟩ := h
    exact ⟨⟨fired, hfired⟩, warnings, hwarnings⟩
  · intro h
    obtain ⟨⟨fired, hfired⟩, warnings, hwarnings⟩ := h
    exact ⟨_, fired, hfired, warnings, hwarnings, rfl⟩

theorem flatten_map_ite {α : Type} (p : α → Bool) (f : α → List String) (l : List α) :
    (l.map fun x => if p x then f x else []).flatten = (l.filter p).flatMap f := by
  induction l with
  | nil => rfl
  | cons x l ih =>
    rw [List.map_cons, List.flatten_cons, List.filter_cons, ih]
    split <;> rfl

theorem findingsIn_firedRules {fired : List Fired} (h : firedRules s t = .ok fired) :
    findingsIn c fired = foundUnder c (s.renderings t) := by
  obtain ⟨byPath, hpath, h⟩ := bind_eq_ok.mp h
  obtain ⟨byThreshold, hthreshold, h⟩ := bind_eq_ok.mp h
  obtain rfl := Except.ok.inj h
  have hall : ∀ os : List (Option Fired),
      findingsIn c (os.filterMap id) = (os.map (foundIn c)).flatten := by
    intro os
    rw [findingsIn, List.filterMap_eq_flatMap_toList, List.flatMap_assoc, List.flatMap_assoc,
      ← List.flatMap_def]
    exact List.flatMap_congr fun o _ => List.flatMap_assoc.symm
  rw [hall, List.map_append, map_of_mapM_eq_ok (fun _ _ => foundIn_firePathRule) hpath,
    map_of_mapM_eq_ok (fun _ _ => foundIn_fireThresholdRule) hthreshold, List.flatten_append,
    flatten_map_ite, flatten_map_ite, Subject.renderings, foundUnder, List.filter_append,
    List.flatMap_append, List.filter_flatMap, List.filter_flatMap, List.flatMap_assoc,
    List.flatMap_assoc]
  rfl

theorem lookup_filter_isEmpty (f : Category → List String) (l : List Category) :
    (((l.map fun c => (c, f c)).filter (!·.2.isEmpty)).lookup c).getD [] =
      if c ∈ l then f c else [] := by
  induction l with
  | nil => rfl
  | cons d l ih =>
    rw [List.map_cons, List.filter_cons]
    by_cases hcd : c = d
    · subst hcd
      cases hf : f c with
      | nil => simp [hf, ih]
      | cons => simp
    · have hskip : ∀ r, ((d, f d) :: r).lookup c = r.lookup c := fun r => by
        rw [List.lookup_cons, beq_eq_false_iff_ne.mpr hcd]
      rw [apply_ite (List.lookup c), hskip, ite_self, ih]
      simp [hcd]

theorem findingsUnder_assess (h : assess t s diff = .ok a) (c : Category) :
    a.findingsUnder c = foundUnder c (s.renderings t) := by
  obtain ⟨fired, hfired, warnings, -, rfl⟩ := assess_eq_ok.mp h
  have hmem : c ∈ Category.all := by cases c <;> decide
  rw [← findingsIn_firedRules hfired, Assessment.findingsUnder]
  exact (lookup_filter_isEmpty (findingsIn · fired) Category.all).trans (if_pos hmem)

end Assessment

end ChangeImpact.Risk
