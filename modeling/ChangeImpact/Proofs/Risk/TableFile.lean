import ChangeImpact.Proofs.Repository.Stored
import ChangeImpact.Risk.StandardRules

/-!
# Written rule tables

A rule table that is written and read again is the same table, if every number in it has few
enough digits to be read.
-/

namespace ChangeImpact.Risk

open Json Checked

section Names

theorem Level.named?_name (l : Level) : Level.named? l.name = some l := by
  cases l <;> rfl

theorem Category.named?_name (c : Category) : Category.named? c.name = some c := by
  cases c <;> rfl

end Names

section Checks

theorem checkNamed_text {α : Type} {named? : String → Option α} {s : String} {a : α}
    (h : named? s = some a) : checkNamed named? (.text s) = good a := by
  simp [checkNamed, string?, h]

theorem checkOptional_orNull : (checkOptional checkText).Restores RuleTable.orNull := by
  rintro (- | s)
  · rfl
  · rw [RuleTable.orNull, checkOptional]
    · rw [checkText_restores s]
      rfl
    · exact nofun

theorem checkFinding_restores : checkFinding.Restores RuleTable.findingJson := fun f => by
  simp [checkFinding, RuleTable.findingJson, checkObject, required, Json.optional, named?_cons,
    seq_eq_good, map_eq_good, checkNamed_text f.category.named?_name, checkText_restores f.message,
    checkBool_restores f.perFile, checkOptional_orNull f.fallback]

theorem checkPathRule_restores : checkPathRule.Restores RuleTable.pathRuleJson := fun r => by
  simp [checkPathRule, RuleTable.pathRuleJson, checkObject, required, Json.optional, named?_cons,
    seq_eq_good, map_eq_good, checkText_restores r.name, checkText_restores r.area, texts,
    checkText_restores.tuple r.fragments, checkInt_restores r.weight,
    checkBool_restores r.critical, checkFinding_restores.tuple r.findings]

theorem checkThresholdRule_restores :
    checkThresholdRule.Restores RuleTable.thresholdRuleJson := fun r => by
  simp [checkThresholdRule, RuleTable.thresholdRuleJson, checkObject, required, Json.optional,
    named?_cons, seq_eq_good, map_eq_good, checkText_restores r.name,
    checkText_restores r.metric, checkInt_restores r.threshold, checkInt_restores r.weight,
    checkOptional_orNull r.area, checkFinding_restores.tuple r.findings]

theorem checkLevel_restores : checkLevel.Restores RuleTable.levelJson := fun l => by
  simp [checkLevel, RuleTable.levelJson, checkObject, required, named?_cons, seq_eq_good,
    map_eq_good, checkInt_restores l.minScore, checkNamed_text l.level.named?_name]

theorem check_restores : RuleTable.check.Restores RuleTable.toJson := fun t => by
  simp [RuleTable.check, RuleTable.toJson, checkObject, Json.optional, named?_cons, seq_eq_good,
    map_eq_good, checkText_restores t.version, checkPathRule_restores.tuple t.pathRules,
    checkThresholdRule_restores.tuple t.thresholdRules, checkLevel_restores.tuple t.levels]

end Checks

section Limits

variable {d : Dialect} {room : Nat}

theorem isWritable_orNull (s : Option String) : IsWritable d (RuleTable.orNull s) := by
  cases s <;> simp [RuleTable.orNull, isWritable_text]

theorem isWritable_findingJson (f : FindingTemplate) : IsWritable d (RuleTable.findingJson f) := by
  simp [RuleTable.findingJson, isWritable_object, isWritable_text, isWritable_orNull]

theorem isWritable_toJson (t : RuleTable) : IsWritable d t.toJson := by
  simp [RuleTable.toJson, RuleTable.pathRuleJson, RuleTable.thresholdRuleJson,
    RuleTable.levelJson, texts, isWritable_object, isWritable_list, isWritable_text,
    isWritable_orNull, isWritable_findingJson]

theorem fits_orNull (s : Option String) : Fits d room (RuleTable.orNull s) := by
  cases s <;> simp [RuleTable.orNull]

theorem fits_findingJson (f : FindingTemplate) :
    Fits d (room + 1) (RuleTable.findingJson f) := by
  simp [RuleTable.findingJson, fits_object, fits_orNull]

theorem fits_pathRuleJson (r : PathRule) :
    Fits d (room + 3) (RuleTable.pathRuleJson r) ↔ Text.IsReadable r.weight.natAbs := by
  simp [RuleTable.pathRuleJson, texts, fits_object, fits_list, fits_int, fits_findingJson]

theorem fits_thresholdRuleJson (r : ThresholdRule) :
    Fits d (room + 3) (RuleTable.thresholdRuleJson r) ↔
      Text.IsReadable r.threshold.natAbs ∧ Text.IsReadable r.weight.natAbs := by
  simp [RuleTable.thresholdRuleJson, fits_object, fits_list, fits_int, fits_findingJson,
    fits_orNull]

theorem fits_levelJson (l : LevelThreshold) :
    Fits d (room + 1) (RuleTable.levelJson l) ↔ Text.IsReadable l.minScore.natAbs := by
  simp [RuleTable.levelJson, fits_object, fits_int]

def RuleTable.numbers (t : RuleTable) : List Int :=
  t.pathRules.map (·.weight) ++ t.thresholdRules.flatMap (fun r => [r.threshold, r.weight]) ++
    t.levels.map (·.minScore)

theorem RuleTable.forall_mem_numbers {P : Int → Prop} {t : RuleTable} :
    (∀ n ∈ t.numbers, P n) ↔ (∀ r ∈ t.pathRules, P r.weight) ∧
      (∀ r ∈ t.thresholdRules, P r.threshold ∧ P r.weight) ∧ ∀ l ∈ t.levels, P l.minScore := by
  have hpair : ∀ r : ThresholdRule,
      (∀ n ∈ [r.threshold, r.weight], P n) ↔ P r.threshold ∧ P r.weight := by simp
  simp only [numbers, List.forall_mem_append, List.forall_mem_map, List.forall_mem_flatMap,
    hpair, and_assoc]

theorem fits_toJson (t : RuleTable) :
    Fits d (room + 5) t.toJson ↔ ∀ n ∈ t.numbers, Text.IsReadable n.natAbs := by
  simp [RuleTable.toJson, RuleTable.forall_mem_numbers, fits_object, fits_list,
    fits_pathRuleJson, fits_thresholdRuleJson, fits_levelJson]

theorem read_write {t : RuleTable} (readable : ∀ n ∈ t.numbers, Text.IsReadable n.natAbs) :
    RuleTable.read t.write = good t := by
  have htakes : Dialect.strict.Takes t.toJson := (fits_toJson t).mpr readable
  rw [RuleTable.read, RuleTable.write]
  rcases readLoose_write (d := .strict) .stored (isWritable_toJson t) with ⟨-, hread⟩ | ⟨hnot, -⟩
  · rw [hread]
    exact check_restores t
  · exact absurd htakes hnot

end Limits

end ChangeImpact.Risk

namespace ChangeImpact.Repository

open Risk Json

/-- The file holds what is written for the table, and the disk takes its path. -/
structure Holds (disk : Tree) (file : Path) (t : RuleTable) : Prop where
  named : file.holdsNull = false
  taken : disk.refuses file = false
  stored : disk.at? file = some (.file (Text.Utf8.encode t.write.toList))

variable {disk : Tree} {file : Path} {t : RuleTable}

theorem loadRules_written (h : Holds disk file t)
    (readable : ∀ n ∈ t.numbers, Text.IsReadable n.natAbs) :
    loadRules disk file = .ok t ∧ (loadRules disk file).map RuleTable.write = .ok t.write := by
  have hload : loadRules disk file = .ok t := by
    rw [loadRules, readStored_encode h.named h.taken h.stored, Except.bind, read_write readable]
    rfl
  rw [hload]
  exact ⟨rfl, rfl⟩

section Shelf

def shelf (t : RuleTable) : Tree :=
  .folder [("rules.json", .file (Text.Utf8.encode t.write.toList))]

def shelfFile : Path := ⟨.root, ["rules.json"]⟩

theorem holds_shelf (t : RuleTable) : Holds (shelf t) shelfFile t where
  named := by decide
  taken := Tree.refuses_eq_false (by decide) (by decide) _
  stored := by simp [Tree.at?, shelfFile, shelf, Tree.follow]

theorem loadRules_standardRules : Holds (shelf standardRules) shelfFile standardRules ∧
    (∀ n ∈ standardRules.numbers, Text.IsReadable n.natAbs) ∧
    loadRules (shelf standardRules) shelfFile = .ok standardRules := by
  have hreadable : ∀ n ∈ standardRules.numbers, Text.IsReadable n.natAbs := by
    have hsmall : ∀ n ∈ standardRules.numbers, n.natAbs < Nat.pow 10 4 := by decide
    exact fun n hn => Text.isReadable_of_lt (hsmall n hn) (by decide)
  exact ⟨holds_shelf _, hreadable, (loadRules_written (holds_shelf _) hreadable).1⟩

end Shelf

end ChangeImpact.Repository
