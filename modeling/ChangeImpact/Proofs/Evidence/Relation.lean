import ChangeImpact.Evidence.Coverage
import ChangeImpact.Proofs.Data.Entries

/-!
# The relation of evidence

Which test has evidence for which file, and how strong it is. What a test is scored with and what
is reported on the tests of a change are told in terms of it.
-/

namespace ChangeImpact.Repository

open Evidence

def evidenceOf (r : Repository) (test path : String) : Option Confidence :=
  r.evidenceFor test (r.textOf test) ((r.importedBy test).filterMap (r.resolver.resolve? · test))
    path

def hasEvidence (r : Repository) (test path : String) : Bool := (r.evidenceOf test path).isSome

variable {r : Repository} {changed : List String} {test path : String} {t : RelatedTest}

theorem ifNoFault_eq_ok {α : Type} {fault : Option DiskFault} {a b : α} :
    ifNoFault fault a = .ok b ↔ fault = none ∧ a = b := by
  cases fault <;> simp [ifNoFault]

theorem evidenceOf_self (r : Repository) (test : String) : r.evidenceOf test test = none := by
  simp [evidenceOf, evidenceFor]

def evidenceAmong (r : Repository) (test : String) (changed : List String) :
    List (String × Confidence) :=
  changed.filterMap fun path => (r.evidenceOf test path).map fun c => (path, c)

theorem mem_evidenceAmong {c : Confidence} : (path, c) ∈ r.evidenceAmong test changed ↔
    path ∈ changed ∧ r.evidenceOf test path = some c := by
  simp only [evidenceAmong, List.mem_filterMap, Option.map_eq_some_iff, Prod.mk.injEq]
  constructor
  · intro h
    obtain ⟨_, hmem, _, hev, rfl, rfl⟩ := h
    exact ⟨hmem, hev⟩
  · intro h
    exact ⟨path, h.1, c, h.2, rfl, rfl⟩

theorem map_fst_evidenceAmong (r : Repository) (test : String) (changed : List String) :
    (r.evidenceAmong test changed).map (·.1) = changed.filter (r.hasEvidence test) := by
  have hback : ∀ path e, (r.evidenceOf test path).map (fun c => (path, c)) = some e →
      e.1 = path := by
    intro path e he
    obtain ⟨c, -, rfl⟩ := Option.map_eq_some_iff.mp he
    rfl
  rw [evidenceAmong, map_filterMap_of_inverse hback]
  simp only [Option.isSome_map]
  rfl

def scored (r : Repository) (test : String) (changed : List String) : RelatedTest :=
  let evidence := r.evidenceAmong test changed
  { path := test, confidence := strongest (evidence.map (·.2)),
    relatedFiles := evidence.map (·.1), evidence }

theorem testEvidence_eq (r : Repository) (test : String) (changed : List String) :
    r.testEvidence test changed =
      if (r.evidenceAmong test changed).isEmpty then none else some (r.scored test changed) := rfl

theorem testEvidence_eq_some : r.testEvidence test changed = some t ↔
    r.evidenceAmong test changed ≠ [] ∧ r.scored test changed = t := by
  rw [testEvidence_eq]
  cases r.evidenceAmong test changed with
  | nil => simp
  | cons e es => simp

theorem isSome_testEvidence (r : Repository) (test : String) (changed : List String) :
    (r.testEvidence test changed).isSome = changed.any (r.hasEvidence test) := by
  have hempty : (r.evidenceAmong test changed).isEmpty = !changed.any (r.hasEvidence test) := by
    rw [← List.isEmpty_map (f := (·.1)), map_fst_evidenceAmong, Bool.eq_iff_iff]
    simp
  rw [testEvidence_eq, hempty]
  cases changed.any (r.hasEvidence test) <;> rfl

theorem path_of_testEvidence (h : r.testEvidence test changed = some t) : t.path = test := by
  obtain ⟨-, rfl⟩ := testEvidence_eq_some.mp h
  rfl

def coveredBy (tests : List RelatedTest) : List String :=
  (tests.flatMap (·.relatedFiles)).eraseDups

def relatedTo (r : Repository) (changed : List String) : List RelatedTest :=
  (r.consideredTests changed).filterMap (r.testEvidence · changed)

def coverageAmong (r : Repository) (changed : List String) : Coverage :=
  let covered := coveredBy (r.relatedTo changed)
  { relatedTests := r.relatedTo changed
    coveragePercent := min 100 (max 0 (percent covered.length changed.length))
    missingTests := changed.filter (!covered.contains ·)
    considered := (r.consideredTests changed).length }

theorem coverageOf_eq (h : changed ≠ []) :
    r.coverageOf changed = r.coverageAmong changed.eraseDups := by
  have hsome : changed.eraseDups.isEmpty = false := by
    cases changed with
    | nil => exact absurd rfl h
    | cons p l => rw [List.eraseDups_cons, List.isEmpty_cons]
  simp only [coverageOf, hsome, Bool.false_eq_true, if_false]
  rfl

end ChangeImpact.Repository
