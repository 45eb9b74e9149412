import ChangeImpact.Proofs.Risk.Rendered
import ChangeImpact.Proofs.Template.Verbatim
import ChangeImpact.Risk.StandardRules

/-!
# The texts of the standard rules

Every text of the standard rules is a plain template: its fields are names of values and nothing
else. A rendering of such a text fails only by a number that is too long, and it makes one finding.
-/

namespace ChangeImpact.Risk

open Template (Markup Verbatim openBrace closeBrace)

section Plain

def plainFrom (before : List Char) : List (List Char) → Markup
  | [] => .text before
  | part :: parts =>
    .field before (part.takeWhile (· != closeBrace)) none
      (plainFrom ((part.dropWhile (· != closeBrace)).drop 1) parts)

def plainOf (text : List Char) : Markup :=
  match Text.splitOn openBrace text with
  | [] => .text []
  | before :: parts => plainFrom before parts

structure IsPlainText (texts numbers : List String) (text : String) : Prop where
  plain : (plainOf text.toList).IsPlain
  spell : (plainOf text.toList).spell = text.toList
  names : (plainOf text.toList).names.filter (· ∉ texts) = numbers
  ending : (plainOf text.toList).ending ≠ []

structure IsUnmarked (text : String) : Prop where
  absent : Text.occursIn Subject.consumersMark text.toList = false

/-- The texts of a finding are plain, and there is a fallback where it may be asked for. -/
inductive FindingTemplate.IsPlain (texts numbers : List String) : FindingTemplate → Prop
  | alone {c : Category} {message : String} {perFile : Bool}
      (plain : IsPlainText texts numbers message) (unmarked : IsUnmarked message) :
      IsPlain texts numbers ⟨c, message, perFile, none⟩
  | withFallback {c : Category} {message fallback : String} {perFile : Bool}
      (plain : IsPlainText texts numbers message) (plain' : IsPlainText texts numbers fallback) :
      IsPlain texts numbers ⟨c, message, perFile, some fallback⟩

variable {texts numbers : List String}

theorem exists_textOf? {f : FindingTemplate} (h : f.IsPlain texts numbers) (hasConsumers : Bool) :
    ∃ text, Subject.textOf? f hasConsumers = some text ∧ IsPlainText texts numbers text := by
  rw [Subject.textOf?]
  cases h with
  | alone hplain hmark => exact ⟨_, by rw [hmark.absent]; rfl, hplain⟩
  | withFallback hplain hfallback =>
    split
    exacts [⟨_, rfl, hfallback⟩, ⟨_, rfl, hplain⟩]

variable {r : Rendering} {text : String}

theorem Rendering.result_eq_ok (htext : r.text? = some text) {found : List String} :
    r.result = .ok found ↔
      ∃ made, Template.fill r.values text = .ok made ∧
        (if made == "" then [] else [made]) = found := by
  have hfill {made : String} :
      Subject.fillIn r.values text = .ok made ↔ Template.fill r.values text = .ok made := by
    rw [Subject.fillIn]
    cases Template.fill r.values text with
    | ok => simp
    | error e => cases he : e.isAbsence <;> simp [he]
  rw [Rendering.result_eq, htext, rendered, map_eq_ok]
  simp only [hfill]

/-- Where all names have values, only a number can make a rendering fail. -/
theorem Rendering.succeeds_iff (htext : r.text? = some text)
    (hplain : IsPlainText texts numbers text)
    (htexts : ∀ name ∈ texts, ∃ shown, r.values.lookup name = some (.text shown))
    (hnumbers : ∀ name ∈ numbers, ∃ n, r.values.lookup name = some (.number n)) : r.Succeeds ↔
      ∀ name ∈ numbers, ∀ v, r.values.lookup name = some v → v.IsWritten := by
  obtain ⟨hm, hspell, hnames, -⟩ := hplain
  have hmem : ∀ name, name ∈ numbers ↔ name ∈ (plainOf text.toList).names ∧ name ∉ texts := by
    intro name
    rw [← hnames, List.mem_filter, decide_eq_true_iff]
  obtain ⟨made, hmade⟩ : ∃ made, (plainOf text.toList).replaced? r.values = some made := by
    refine Template.Markup.exists_replaced hm fun name hname => ?_
    by_cases hshown : name ∈ texts
    · obtain ⟨shown, hvalue⟩ := htexts name hshown
      exact ⟨_, hvalue⟩
    · obtain ⟨n, hvalue⟩ := hnumbers name ((hmem name).mpr ⟨hname, hshown⟩)
      exact ⟨_, hvalue⟩
  simp only [Rendering.Succeeds, result_eq_ok htext, Template.fill_eq_ok hm hspell]
  constructor
  · intro h
    obtain ⟨_, _, ⟨hwritten, -⟩, -⟩ := h
    exact fun name hname => hwritten name ((hmem name).mp hname).1
  · intro hwritten
    refine ⟨_, String.ofList made, ⟨fun name hname v hv => ?_, ?_⟩, rfl⟩
    · by_cases hshown : name ∈ texts
      · obtain ⟨shown, hvalue⟩ := htexts name hshown
        rw [hvalue] at hv
        obtain rfl := Option.some.inj hv
        trivial
      · exact hwritten name ((hmem name).mpr ⟨hname, hshown⟩) v hv
    · rw [hmade, String.toList_ofList]

theorem Rendering.found_verbatim (htext : r.text? = some text)
    (hplain : IsPlainText texts numbers text) (h : r.Succeeds) :
    ∃ made, r.found = [made] ∧ Verbatim r.values text made := by
  obtain ⟨found, hfound⟩ := h
  obtain ⟨made, hmade, rfl⟩ := (result_eq_ok htext).mp hfound
  obtain ⟨hm, hspell, -, hending⟩ := hplain
  have hreplaced := ((Template.fill_eq_ok hm hspell).mp hmade).2
  have hne : (made == "") = false := by
    refine beq_eq_false_iff_ne.mpr fun hempty => hending ?_
    rw [hempty] at hreplaced
    exact List.suffix_nil.mp (Template.Markup.ending_suffix hreplaced)
  refine ⟨made, ?_, plainOf text.toList, hm, hspell, hreplaced⟩
  rw [Rendering.found, hfound, hne]
  rfl

end Plain

section Rules

def numbersNamed (metric : String) : List String :=
  match metric with
  | "total_lines" => ["total_lines", "files_changed"]
  | "files_changed" => ["files_changed"]
  | "net_deletions" => ["lines_deleted", "lines_added"]
  | "affected_files" => ["value"]
  | _ => []

/-! The characters of a literal are at hand where it is taken as made of them. -/

def checkPlain (texts numbers : List String) (text : List Char) : Bool :=
  decide (plainOf text).IsPlain && (plainOf text).spell == text &&
    (plainOf text).names.filter (· ∉ texts) == numbers && !(plainOf text).ending.isEmpty

theorem isPlainText_ofList {l : List Char} (h : checkPlain texts numbers l) :
    IsPlainText texts numbers (String.ofList l) := by
  simp only [checkPlain, Bool.and_eq_true, decide_eq_true_eq, beq_iff_eq, Bool.not_eq_true',
    List.isEmpty_eq_false_iff] at h
  obtain ⟨⟨⟨hplain, hspell⟩, hnames⟩, hending⟩ := h
  constructor <;> rwa [String.toList_ofList]

theorem isPlainText_append {l m : List Char} (h : checkPlain texts numbers (l ++ m)) :
    IsPlainText texts numbers (String.ofList l ++ String.ofList m) := by
  rw [← String.ofList_append]
  exact isPlainText_ofList h

theorem isUnmarked_ofList {l : List Char} (h : Text.occursIn Subject.consumersMark l = false) :
    IsUnmarked (String.ofList l) :=
  ⟨by rwa [String.toList_ofList]⟩

theorem isUnmarked_append {l m : List Char}
    (h : Text.occursIn Subject.consumersMark (l ++ m) = false) :
    IsUnmarked (String.ofList l ++ String.ofList m) := by
  rw [← String.ofList_append]
  exact isUnmarked_ofList h

theorem standardRules_plain :
    (∀ rule ∈ standardPathRules, ∀ f ∈ rule.findings,
      f.IsPlain ["file", "files", "consumers"] []) ∧
    ∀ rule ∈ standardThresholdRules, ∀ f ∈ rule.findings,
      f.IsPlain ["consumers", "missing"] (numbersNamed rule.metric) := by
  simp only [standardPathRules, standardThresholdRules, List.forall_mem_cons, List.not_mem_nil,
    false_imp_iff, implies_true, and_true]
  and_intros
  all_goals first
    | refine .withFallback ?_ ?_
    | refine .alone ?_ ?_
  all_goals first
    | exact isPlainText_append (by decide +kernel)
    | exact isPlainText_ofList (by decide +kernel)
    | exact isUnmarked_append (by decide +kernel)
    | exact isUnmarked_ofList (by decide +kernel)

theorem findings_ne_nil : ∀ rule ∈ standardThresholdRules, rule.findings ≠ [] := by
  simp [standardThresholdRules]

end Rules

end ChangeImpact.Risk
