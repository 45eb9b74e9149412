import ChangeImpact.Proofs.Risk.Fragments
import ChangeImpact.Proofs.Risk.Rendered
import ChangeImpact.Proofs.Template.Mentions

/-!
# Findings without consumers

A finding falls back on its second text if its message needs consumers and there are none. Whether
a message needs them is told by the characters of the message, in which the name of the consumers
has to stand between braces. This tells it just of the messages that mention consumers if and only
if they show that name: `fallsBack_iff`. A field with a conversion, with a layout or with a step
into the text is overlooked, and braces that are written twice are taken for a field.
-/

namespace ChangeImpact.Risk

open Template (Markup Value Values)

def consumersName : List Char := ['c', 'o', 'n', 's', 'u', 'm', 'e', 'r', 's']

structure Spells (m : Markup) (text : String) : Prop where
  wellFormed : m.IsWellFormed
  spell : m.spell = text.toList

def sourceOf? (m : Markup) (f : FindingTemplate) : Option String :=
  if m.Mentions consumersName then f.fallback else some f.message

/-- Whatever the table and the change, where there are no consumers a finding with this message is
made from the message if that has no field for them, and from the fallback if it has. -/
def FallsBack (message : String) (m : Markup) : Prop :=
  ∀ (t : RuleTable) (s : Subject), ∀ r ∈ s.renderings t, r.template.message = message →
    r.consumers = [] → r.result = rendered (sourceOf? m r.template) r.values

variable {s : Subject} {t : RuleTable} {r : Rendering} {m : Markup} {message : String}

theorem hasConsumers_of_nil (hr : r ∈ s.renderings t) (hnone : r.consumers = []) :
    r.hasConsumers = false := by
  rcases of_mem_renderings hr with ⟨-, -, f, -, matched, hr⟩ | ⟨rule, -, f, -, rfl⟩
  · rw [(of_mem_pathRenderings hr).2.1, hnone]
    rfl
  · exact congrArg (s.abridged · != "") hnone

theorem consumersMark_eq : Subject.consumersMark = Template.between consumersName :=
  String.toList_ofList

theorem occursIn_consumersMark (h : Spells m message) :
    Text.occursIn Subject.consumersMark message.toList = true ↔ m.Shows consumersName := by
  have hne : consumersName ≠ [] := by decide
  have hinert : ∀ c ∈ consumersName, Template.isInert c = true :=
    List.all_eq_true.mp (by decide)
  rw [Text.occursIn_iff, consumersMark_eq, ← h.spell,
    Template.infix_spell_iff hne hinert h.wellFormed]

theorem text?_of_nil (h : Spells m message) (hr : r ∈ s.renderings t)
    (hmessage : r.template.message = message) (hnone : r.consumers = []) :
    (m.Shows consumersName → r.text? = r.template.fallback) ∧
      (¬ m.Shows consumersName → r.text? = some r.template.message) := by
  rw [Rendering.text?, Subject.textOf?, hasConsumers_of_nil hr hnone, hmessage,
    ← occursIn_consumersMark h]
  cases Text.occursIn Subject.consumersMark message.toList <;> simp

/-- A message is treated as it is to be if the name shows exactly where a field mentions it. -/
theorem fallsBack_of_iff (h : Spells m message)
    (hiff : m.Mentions consumersName ↔ m.Shows consumersName) : FallsBack message m := by
  intro t s r hr hmessage hnone
  obtain ⟨hshown, hplain⟩ := text?_of_nil h hr hmessage hnone
  rw [Rendering.result_eq, sourceOf?]
  by_cases hm : m.Mentions consumersName
  · rw [if_pos hm, hshown (hiff.mp hm)]
  · rw [if_neg hm, hplain (mt hiff.mpr hm)]

section Lone

def findingTable (f : FindingTemplate) : RuleTable :=
  { pathRules := [{ loneRule "a" with findings := [f] }] }

def loneFinding (message fallback : String) : FindingTemplate :=
  ⟨.regression, message, false, some fallback⟩

def loneValues : Values :=
  Subject.pathValues "a" ((loneChange "a").abridged ["a"]) 1 ((loneChange "a").abridged [])

theorem mem_renderings_lone (message fallback : String) :
    ⟨loneFinding message fallback, [], loneValues, false⟩ ∈
      (loneChange "a").renderings (findingTable (loneFinding message fallback)) := by
  have hfires : (loneRule "a").fires "a" = true := by decide +kernel
  have hmatched : (loneChange "a").changes.paths.filter (loneRule "a").fires = ["a"] := by
    rw [paths_loneChange, List.filter_cons_of_pos hfires, List.filter_nil]
  have hrule : { loneRule "a" with findings := [loneFinding message fallback] } ∈
      (loneChange "a").firedPathRules (findingTable (loneFinding message fallback)) := by
    refine List.mem_filter.mpr ⟨List.mem_cons_self, ?_⟩
    rw [Subject.touches, paths_loneChange, List.any_cons]
    exact Bool.or_eq_true_iff.mpr (.inl hfires)
  refine List.mem_append_left _ (List.mem_flatMap.mpr ⟨_, hrule, ?_⟩)
  refine List.mem_flatMap.mpr ⟨_, List.mem_cons_self, ?_⟩
  change _ ∈ (loneChange "a").pathRenderings
    ((loneChange "a").changes.paths.filter (loneRule "a").fires) _
  rw [hmatched]
  exact List.mem_cons_self

theorem rendered_letters : rendered (some "a") loneValues = .ok ["a"] ∧
    rendered (some "b") loneValues = .ok ["b"] := by decide +kernel

theorem rendered_of_fallsBack (h : Spells m message) (hfalls : FallsBack message m)
    (hdiffer : ¬ (m.Mentions consumersName ↔ m.Shows consumersName)) (fallback : String) :
    rendered (some message) loneValues = rendered (some fallback) loneValues := by
  have hmem := mem_renderings_lone message fallback
  have hresult := hfalls _ _ _ hmem rfl rfl
  obtain ⟨hshown, hplain⟩ := text?_of_nil h hmem rfl rfl
  rw [Rendering.result_eq, sourceOf?] at hresult
  by_cases hm : m.Mentions consumersName
  · rw [if_pos hm, hplain fun hs => hdiffer (iff_of_true hm hs)] at hresult
    exact hresult
  · rw [if_neg hm, hshown (by_contra fun hs => hdiffer (iff_of_false hm hs))] at hresult
    exact hresult.symm

theorem iff_of_fallsBack (h : Spells m message) (hfalls : FallsBack message m) :
    m.Mentions consumersName ↔ m.Shows consumersName := by
  by_contra hdiffer
  have hsame := (rendered_of_fallsBack h hfalls hdiffer "a").symm.trans
    (rendered_of_fallsBack h hfalls hdiffer "b")
  rw [rendered_letters.1, rendered_letters.2] at hsame
  exact absurd (Except.ok.inj hsame) (by decide)

end Lone

/-- Every message that can be read is how some template is written, and it is treated as it is to
be if and only if the name of the consumers is shown between braces just where a field mentions
them. -/
theorem fallsBack_iff (message : String) (h : Template.IsRead 2 message.toList) :
    (∃ m, Spells m message) ∧ ∀ m, Spells m message →
      (FallsBack message m ↔ (m.Mentions consumersName ↔ m.Shows consumersName)) := by
  obtain ⟨m, hwf, -, hspell⟩ := Template.isRead_iff.mp h
  exact ⟨⟨m, hwf, hspell⟩, fun m hm => ⟨iff_of_fallsBack hm, fallsBack_of_iff hm⟩⟩

def namedAfter (text : List Char) (conversion : Option Char) : Markup :=
  .field text consumersName conversion (.text [])

theorem wellFormed_namedAfter (text : List Char) (conversion : Option Char) :
    (namedAfter text conversion).IsWellFormed :=
  ⟨by decide, trivial⟩

theorem mentions_namedAfter (text : List Char) (conversion : Option Char) :
    (namedAfter text conversion).Mentions consumersName :=
  .inl (by decide)

theorem fallsBack_usedBy :
    Template.IsRead 2 "Used by {consumers}".toList ∧ FallsBack "Used by {consumers}"
      (namedAfter "Used by ".toList none) := by
  have hspell : (namedAfter "Used by ".toList none).spell = "Used by {consumers}".toList := by
    decide +kernel
  have hspells : Spells (namedAfter "Used by ".toList none) "Used by {consumers}" :=
    ⟨wellFormed_namedAfter _ _, hspell⟩
  have hread : Template.IsRead 2 "Used by {consumers}".toList :=
    Template.isRead_iff.mpr ⟨_, hspells.wellFormed, by decide, hspell⟩
  have hshown : (namedAfter "Used by ".toList none).Shows consumersName :=
    .inr (.inl (.inl ⟨rfl, rfl⟩))
  exact ⟨hread, ((fallsBack_iff _ hread).2 _ hspells).mpr
    (iff_of_true (mentions_namedAfter _ _) hshown)⟩

theorem not_fallsBack :
    (Spells (.text "{consumers}".toList) "{{consumers}}" ∧
      ¬ FallsBack "{{consumers}}" (.text "{consumers}".toList)) ∧
    (Spells (namedAfter [] (some 's')) "{consumers!s}" ∧
      ¬ FallsBack "{consumers!s}" (namedAfter [] (some 's'))) := by
  have hescaped : Spells (.text "{consumers}".toList) "{{consumers}}" :=
    ⟨trivial, by decide +kernel⟩
  have hconverted : Spells (namedAfter [] (some 's')) "{consumers!s}" :=
    ⟨wellFormed_namedAfter _ _, by decide +kernel⟩
  refine ⟨⟨hescaped, fun h => ?_⟩, hconverted, fun h => ?_⟩
  · refine (iff_of_fallsBack hescaped h).mpr ?_
    rw [Markup.Shows, ← consumersMark_eq]
    exact List.infix_rfl
  · rcases (iff_of_fallsBack hconverted h).mp (mentions_namedAfter _ _) with
      hbefore | (⟨-, hnone⟩ | hname) | hbehind
    · exact absurd hbefore.length_le (by decide)
    · cases hnone
    · exact absurd hname.length_le (by decide)
    · exact absurd hbehind.length_le (by decide)

end ChangeImpact.Risk
