import ChangeImpact.Proofs.Data.Results
import ChangeImpact.Proofs.Path.Parts
import ChangeImpact.Proofs.Settings.Runs
import Mathlib.Logic.Function.Basic

/-!
# One field of the settings

The settings are a value for each field. To set the key of a field is to put what the check of
that field alone makes of the new value in place of the value of that field, and it fails where
that check does; keys of two names that are no field's always fail. So whatever is set, the other
fields stay as they are, the last setting of a field decides on its value, and settings of
different fields can be made in either order.
-/

namespace ChangeImpact.Settings

open Json Checked

inductive Field where
  | ignoreDirs
  | maxFileBytes
  | workers
  | verifyImports
  | testDirs
  | maxListingDepth
  | minMentionLength
  | maxDepth
  | defaultBase
  | maxDiffBytes
  | maxContentFiles
  | maxContentBytes
  | maxCommitMessages
  | rulesFile
  | scanDiff
  deriving Repr, DecidableEq

namespace Field

def sectionName : Field → String
  | ignoreDirs | maxFileBytes | workers | verifyImports => "indexer"
  | testDirs | maxListingDepth | minMentionLength => "tests"
  | maxDepth => "impact"
  | defaultBase | maxDiffBytes | maxContentFiles | maxContentBytes | maxCommitMessages => "diff"
  | rulesFile | scanDiff => "risk"

def name : Field → String
  | ignoreDirs => "ignore_dirs"
  | maxFileBytes => "max_file_bytes"
  | workers => "workers"
  | verifyImports => "verify_imports_exist"
  | testDirs => "test_dirs"
  | maxListingDepth => "max_listing_depth"
  | minMentionLength => "min_mention_length"
  | maxDepth => "max_depth"
  | defaultBase => "default_base"
  | maxDiffBytes => "max_diff_bytes"
  | maxContentFiles => "max_content_files"
  | maxContentBytes => "max_content_bytes"
  | maxCommitMessages => "max_commit_messages"
  | rulesFile => "rules_file"
  | scanDiff => "scan_diff"

def key (f : Field) : String := f.sectionName ++ "." ++ f.name

def Value : Field → Type
  | ignoreDirs | testDirs => List LooseText
  | verifyImports | scanDiff => Bool
  | defaultBase => LooseText
  | rulesFile => Option LooseText
  | _ => Int

def check : (f : Field) → Check f.Value
  | ignoreDirs | testDirs => checkList checkLooseText
  | verifyImports | scanDiff => checkBool
  | defaultBase => checkLooseText
  | rulesFile => checkOptional checkLooseText
  | maxFileBytes | maxDiffBytes | maxContentBytes => checkAbove 0
  | workers | minMentionLength => checkAtLeast 1
  | maxListingDepth | maxDepth | maxContentFiles | maxCommitMessages => checkAtLeast 0

def write : (f : Field) → f.Value → Json
  | ignoreDirs, a | testDirs, a => looseTexts a
  | verifyImports, a | scanDiff, a => .bool a
  | defaultBase, a => .text a
  | rulesFile, a => match a with | some f => .text f | none => .null
  | maxFileBytes, n | workers, n | maxListingDepth, n | minMentionLength, n | maxDepth, n
  | maxDiffBytes, n | maxContentFiles, n | maxContentBytes, n | maxCommitMessages, n => .int n

end Field

section Values

def value (s : Settings) : (f : Field) → f.Value
  | .ignoreDirs => s.indexer.ignoreDirs
  | .maxFileBytes => s.indexer.maxFileBytes
  | .workers => s.indexer.workers
  | .verifyImports => s.indexer.verifyImports
  | .testDirs => s.tests.testDirs
  | .maxListingDepth => s.tests.maxListingDepth
  | .minMentionLength => s.tests.minMentionLength
  | .maxDepth => s.impact.maxDepth
  | .defaultBase => s.diff.defaultBase
  | .maxDiffBytes => s.diff.maxDiffBytes
  | .maxContentFiles => s.diff.maxContentFiles
  | .maxContentBytes => s.diff.maxContentBytes
  | .maxCommitMessages => s.diff.maxCommitMessages
  | .rulesFile => s.risk.rulesFile
  | .scanDiff => s.risk.scanDiff

def ofValues (a : (f : Field) → f.Value) : Settings where
  indexer := ⟨a .ignoreDirs, a .maxFileBytes, a .workers, a .verifyImports⟩
  tests := ⟨a .testDirs, a .maxListingDepth, a .minMentionLength⟩
  impact := ⟨a .maxDepth⟩
  diff := ⟨a .defaultBase, a .maxDiffBytes, a .maxContentFiles, a .maxContentBytes,
    a .maxCommitMessages⟩
  risk := ⟨a .rulesFile, a .scanDiff⟩

theorem value_ofValues (a : (f : Field) → f.Value) : (ofValues a).value = a := by
  funext f
  cases f <;> rfl

theorem ofValues_value (s : Settings) : ofValues s.value = s := rfl

theorem value_injective : Function.Injective value :=
  Function.LeftInverse.injective ofValues_value

def put (s : Settings) (f : Field) (a : f.Value) : Settings :=
  ofValues (Function.update s.value f a)

variable {s : Settings} {f g : Field}

@[simp] theorem value_put_self (a : f.Value) : (s.put f a).value f = a := by
  rw [put, value_ofValues, Function.update_self]

theorem value_put_of_ne (h : g ≠ f) (a : f.Value) : (s.put f a).value g = s.value g := by
  rw [put, value_ofValues, Function.update_of_ne h]

theorem put_value_self : s.put f (s.value f) = s := by
  rw [put, Function.update_eq_self, ofValues_value]

theorem put_put (a b : f.Value) : (s.put f a).put f b = s.put f b := by
  rw [put, put, value_ofValues, Function.update_idem, ← put]

theorem put_comm (h : f ≠ g) (a : f.Value) (b : g.Value) :
    (s.put f a).put g b = (s.put g b).put f a := by
  simp only [put, value_ofValues]
  rw [Function.update_comm h]

end Values

section Layout

def sections : List (String × List Field) :=
  [("indexer", [.ignoreDirs, .maxFileBytes, .workers, .verifyImports]),
    ("tests", [.testDirs, .maxListingDepth, .minMentionLength]),
    ("impact", [.maxDepth]),
    ("diff", [.defaultBase, .maxDiffBytes, .maxContentFiles, .maxContentBytes,
      .maxCommitMessages]),
    ("risk", [.rulesFile, .scanDiff])]

theorem sectionName_of_mem_sections : ∀ p ∈ sections, ∀ f ∈ p.2, f.sectionName = p.1 := by
  simp [sections, Field.sectionName]

def layout (w : Field → Json) : Json :=
  .object (sections.map fun p => (p.1, .object (p.2.map fun f => (f.name, w f))))

variable {w : Field → Json} {f : Field} {v : Json}

def written (s : Settings) (f : Field) : Json := f.write (s.value f)

theorem toJson_eq_layout (s : Settings) : s.toJson = layout s.written := rfl

theorem check_layout {s : Settings} :
    Settings.check (layout w) = good s ↔ ∀ f : Field, f.check (w f) = good (s.value f) := by
  rw [Settings.check, layout, checkObject, checkFields_eq_good]
  simp only [sections, List.map_cons, List.map_nil, Field.name, Json.optional, named?_cons,
    String.reduceEq, ↓reduceIte, under_eq_good, checkIndexer_object, checkTests_object,
    checkImpact_object, checkDiff_object, checkRisk_object, and_assoc]
  constructor
  · intro h f
    cases f <;> tauto
  · intro h
    exact ⟨h .ignoreDirs, h .maxFileBytes, h .workers, h .verifyImports, h .testDirs,
      h .maxListingDepth, h .minMentionLength, h .maxDepth, h .defaultBase, h .maxDiffBytes,
      h .maxContentFiles, h .maxContentBytes, h .maxCommitMessages, h .rulesFile, h .scanDiff⟩

theorem get_of_replaceAt? {names : List String} {u t : Json} (h : replaceAt? v names u = some t) :
    names.foldl (fun u name => u.bind (·.field? name)) (some t) = some v := by
  induction names generalizing u t with
  | nil => exact h.symm
  | cons name r ih =>
    cases u with
    | object fields =>
      rw [replaceAt?] at h
      split at h
      next old hold =>
        obtain ⟨new, hnew, rfl⟩ := Option.map_eq_some_iff.mp h
        rw [List.foldl_cons, Option.bind_some, Json.field?, named?_put]
        exact ih hnew
      next => cases h
    | _ => cases h

theorem replaceAt?_layout (w : Field → Json) (f : Field) (v : Json) :
    replaceAt? v [f.sectionName, f.name] (layout w) = some (layout (Function.update w f v)) := by
  cases f <;>
    simp [layout, sections, Field.sectionName, Field.name, replaceAt?, named?_cons, put_cons]

theorem exists_field_of_replaceAt? {a b : String} {u : Json}
    (h : replaceAt? v [a, b] (layout w) = some u) :
    ∃ f : Field, f.sectionName = a ∧ f.name = b := by
  rw [layout, replaceAt?] at h
  split at h
  next hsection =>
    obtain ⟨p, hp, heq⟩ := List.mem_map.mp (mem_of_lookup hsection)
    obtain ⟨hname, rfl⟩ := Prod.mk.inj heq
    obtain ⟨_, hfield, -⟩ := Option.map_eq_some_iff.mp h
    rw [replaceAt?] at hfield
    split at hfield
    next hold =>
      obtain ⟨f, hf, heq⟩ := List.mem_map.mp (mem_of_lookup hold)
      exact ⟨f, (sectionName_of_mem_sections p hp f hf).trans (LooseText.ofString_inj.mp hname),
        LooseText.ofString_inj.mp (Prod.mk.inj heq).1⟩
    next => cases hfield
  next => cases h

end Layout

section Keys

/-- Two names with a dot between them, whether or not they are those of a field. -/
def IsFieldKey (key : String) : Prop := (Text.fields '.' key).length = 2

instance (key : String) : Decidable (IsFieldKey key) := inferInstanceAs (Decidable (_ = _))

theorem fields_key (f : Field) : Text.fields '.' f.key = [f.sectionName, f.name] := by
  cases f <;> decide +kernel

variable {s s' : Settings} {f : Field} {key : String} {v : Json}

theorem check_written (within : s.WithinLimits) (f : Field) :
    f.check (s.written f) = good (s.value f) := by
  have hgood := check_toJson.mpr within
  rw [toJson_eq_layout, check_layout] at hgood
  exact hgood f

theorem set_of_replaceAt? {u : Json} (h : replaceAt? v (Text.fields '.' key) s.toJson = some u) :
    s.set key v = .ok s' ↔ Settings.check u = good s' := by
  simp only [set, h]
  cases Settings.check u with
  | good t =>
    exact ⟨fun h => congrArg good (Except.ok.inj h), fun h => congrArg Except.ok (good.inj h)⟩
  | bad issues => exact iff_of_false (by simp) (by simp)

theorem set_key (within : s.WithinLimits) :
    s.set f.key v = .ok s' ↔ ∃ a, f.check v = good a ∧ s' = s.put f a := by
  have hlayout : replaceAt? v (Text.fields '.' f.key) s.toJson =
      some (layout (Function.update s.written f v)) := by
    rw [fields_key, toJson_eq_layout, replaceAt?_layout]
  rw [set_of_replaceAt? hlayout, check_layout]
  constructor
  · intro h
    have hf := h f
    rw [Function.update_self] at hf
    refine ⟨s'.value f, hf, value_injective (funext fun g => ?_)⟩
    by_cases hg : g = f
    · subst hg
      rw [value_put_self]
    · have hother := h g
      rw [Function.update_of_ne hg, check_written within] at hother
      rw [value_put_of_ne hg]
      exact (good.inj hother).symm
  · rintro ⟨a, ha, rfl⟩ g
    by_cases hg : g = f
    · subst hg
      rw [Function.update_self, value_put_self, ha]
    · rw [Function.update_of_ne hg, value_put_of_ne hg, check_written within]

theorem get?_key (s : Settings) (f : Field) : s.get? f.key = some (s.written f) := by
  have hreplace := replaceAt?_layout s.written f (s.written f)
  rw [Function.update_eq_self] at hreplace
  rw [get?, fields_key, toJson_eq_layout]
  exact get_of_replaceAt? hreplace

theorem exists_field_of_set (hkey : IsFieldKey key) (h : s.set key v = .ok s') :
    ∃ f : Field, key = f.key := by
  obtain ⟨u, hreplace, -⟩ := set_eq_ok h
  obtain ⟨a, b, hab⟩ := List.length_eq_two.mp hkey
  rw [hab, toJson_eq_layout] at hreplace
  obtain ⟨f, rfl, rfl⟩ := exists_field_of_replaceAt? hreplace
  exact ⟨f, Text.fields_injective '.' (hab.trans (fields_key f).symm)⟩

end Keys

section Laws

variable {s s' s₁ t : Settings} {f g : Field} {key other : String} {v w : Json}

theorem withinLimits_of_set (h : s.set key v = .ok s') : s'.WithinLimits := by
  obtain ⟨u, -, hcheck⟩ := set_eq_ok h
  exact withinLimits_of_check hcheck

theorem set_swap (within : s.WithinLimits) (hkey : IsFieldKey key) (hother : IsFieldKey other)
    (hne : other ≠ key) (h₁ : s.set key v = .ok s₁) (h₂ : s₁.set other w = .ok t) :
    ∃ s₂, s.set other w = .ok s₂ ∧ s₂.set key v = .ok t := by
  obtain ⟨f, rfl⟩ := exists_field_of_set hkey h₁
  obtain ⟨g, rfl⟩ := exists_field_of_set hother h₂
  have hfields : f ≠ g := fun heq => hne (congrArg Field.key heq.symm)
  obtain ⟨b, hb, rfl⟩ := (set_key (withinLimits_of_set h₁)).mp h₂
  obtain ⟨a, ha, rfl⟩ := (set_key within).mp h₁
  have hset : s.set g.key w = .ok (s.put g b) := (set_key within).mpr ⟨b, hb, rfl⟩
  refine ⟨s.put g b, hset, (set_key (withinLimits_of_set hset)).mpr ⟨a, ha, ?_⟩⟩
  exact put_comm hfields a b

/-- What holds of setting a key that no other key has a part in. -/
structure SetsAlone (s : Settings) (key : String) : Prop where
  others : ∀ v s', s.set key v = .ok s' → ∀ f : Field, f.key ≠ key → s'.value f = s.value f
  again : ∀ v s', s.set key v = .ok s' →
    ∃ now, s'.get? key = some now ∧ s'.set key now = .ok s'
  last : ∀ v s', s.set key v = .ok s' → ∀ w, (s'.set key w).toOption = (s.set key w).toOption
  decides : ∀ v s', s.set key v = .ok s' → ∀ t : Settings, t.WithinLimits →
    ∃ t', t.set key v = .ok t' ∧ t'.get? key = s'.get? key
  commutes : ∀ other, IsFieldKey other → other ≠ key → ∀ v w,
    (s.set key v >>= fun t => t.set other w).toOption =
      (s.set other w >>= fun t => t.set key v).toOption

/-- To set the key of a field changes that field alone, whatever else is set before or after. -/
theorem setsAlone_of_isFieldKey (within : s.WithinLimits) (hkey : IsFieldKey key) :
    s.SetsAlone key where
  others v s' h g hg := by
    obtain ⟨f, rfl⟩ := exists_field_of_set hkey h
    obtain ⟨a, -, rfl⟩ := (set_key within).mp h
    exact value_put_of_ne (fun heq => hg (congrArg Field.key heq)) a
  again v s' h := by
    obtain ⟨f, rfl⟩ := exists_field_of_set hkey h
    have hwithin := withinLimits_of_set h
    refine ⟨s'.written f, get?_key s' f, (set_key hwithin).mpr ?_⟩
    exact ⟨s'.value f, check_written hwithin f, put_value_self.symm⟩
  last v s' h w := by
    obtain ⟨f, rfl⟩ := exists_field_of_set hkey h
    have hwithin := withinLimits_of_set h
    obtain ⟨a, -, rfl⟩ := (set_key within).mp h
    ext t
    rw [toOption_eq_some, toOption_eq_some, set_key hwithin, set_key within]
    simp only [put_put]
  decides v s' h t ht := by
    obtain ⟨f, rfl⟩ := exists_field_of_set hkey h
    obtain ⟨a, ha, rfl⟩ := (set_key within).mp h
    refine ⟨t.put f a, (set_key ht).mpr ⟨a, ha, rfl⟩, ?_⟩
    rw [get?_key, get?_key, written, written, value_put_self, value_put_self]
  commutes other hother hne v w := by
    ext t
    simp only [toOption_eq_some, bind_eq_ok]
    constructor
    · rintro ⟨s₁, h₁, h₂⟩
      exact set_swap within hkey hother hne h₁ h₂
    · rintro ⟨s₁, h₁, h₂⟩
      exact set_swap within hother hkey hne.symm h₁ h₂

theorem setsAlone_maxDepth : SetsAlone {} "impact.max_depth" ∧
    (set {} "impact.max_depth" (.text "5")).map (fun s => s.impact.maxDepth) = .ok 5 :=
  ⟨setsAlone_of_isFieldKey (by decide) (by decide +kernel), by decide +kernel⟩

/-- To set a whole section changes what other keys name. -/
example : ¬ SetsAlone {} "impact" := by
  intro h
  have hsame := h.others (.object [("max_depth", .int 5)]) { impact := ⟨5⟩ } (by decide +kernel)
    .maxDepth (by decide +kernel)
  exact absurd (show (5 : Int) = 2 from hsame) (by decide)

end Laws

end ChangeImpact.Settings
