import ChangeImpact.Path.Basic
import Mathlib.Data.List.Basic

/-!
# Written paths and their parts

Inside a repository a path is a list of parts, and `ofParts` writes it down. The parts can be read
back from what is written, and a path whose parent marks stand in front of everything else is left
as it is when parent marks are resolved.
-/

namespace ChangeImpact

namespace Text

theorem splitWhere_eq_splitOnP {α : Type} (p : α → Bool) (s : List α) :
    splitWhere p s = s.splitOnP p := by
  induction s with
  | nil => simp [splitWhere]
  | cons c r ih =>
    rw [splitWhere, List.splitOnP_cons_eq_if_modifyHead, ih]
    split
    · rfl
    · cases h : r.splitOnP p with
      | nil => exact absurd h (List.splitOnP_ne_nil p r)
      | cons f fs => rfl

theorem of_mem_splitWhere {α : Type} {p : α → Bool} {s f : List α} (h : f ∈ splitWhere p s) :
    ∀ a ∈ f, p a = false := by
  induction s generalizing f with
  | nil => simp_all [splitWhere]
  | cons c r ih =>
    rw [splitWhere] at h
    split at h
    · rcases List.mem_cons.mp h with rfl | h
      · exact List.forall_mem_nil _
      · exact ih h
    next hc =>
      rw [Bool.not_eq_true] at hc
      cases hs : splitWhere p r with
      | nil =>
        rw [hs] at h
        obtain rfl := List.mem_singleton.mp h
        simpa using hc
      | cons g gs =>
        rw [hs] at h ih
        rcases List.mem_cons.mp h with rfl | h
        · exact List.forall_mem_cons.mpr ⟨hc, ih List.mem_cons_self⟩
        · exact ih (List.mem_cons_of_mem _ h)

theorem notMem_of_mem_splitOn {sep : Char} {s f : List Char} (h : f ∈ splitOn sep s) :
    sep ∉ f := by
  intro hsep
  simpa using of_mem_splitWhere h sep hsep

theorem splitOn_of_notMem {sep : Char} {s : List Char} (h : sep ∉ s) : splitOn sep s = [s] := by
  have hnone : ∀ c ∈ s, (c == sep) = false := fun c hc =>
    beq_eq_false_iff_ne.mpr (ne_of_mem_of_not_mem hc h)
  rw [splitOn, splitWhere_eq_splitOnP]
  exact List.splitOnP_eq_singleton hnone

theorem intercalate_splitOn (sep : Char) (s : List Char) :
    [sep].intercalate (splitOn sep s) = s := by
  rw [splitOn, splitWhere_eq_splitOnP]
  exact List.intercalate_splitOn sep

theorem intercalate_fields (sep : Char) (s : String) :
    [sep].intercalate ((fields sep s).map String.toList) = s.toList := by
  have hid : String.toList ∘ String.ofList = id := by
    funext s
    exact String.toList_ofList
  rw [fields, List.map_map, hid, List.map_id, intercalate_splitOn]

theorem fields_injective (sep : Char) : Function.Injective (fields sep) := by
  intro s t h
  apply String.toList_injective
  rw [← intercalate_fields sep s, h, intercalate_fields]

end Text

namespace Path

def IsPart (p : String) : Prop := p ≠ "" ∧ p ≠ "." ∧ '/' ∉ p.toList

instance (p : String) : Decidable (IsPart p) := inferInstanceAs (Decidable (_ ∧ _))

theorem isPart_of_one_lt_length {p : String} (hlong : 1 < p.toList.length)
    (hslash : '/' ∉ p.toList) : IsPart p := by
  refine ⟨fun heq => ?_, fun heq => ?_, hslash⟩
  · rw [heq] at hlong
    exact absurd hlong (by decide)
  · rw [heq] at hlong
    exact absurd hlong (by decide)

def IsNormal (parts : List String) : Prop := parts.Pairwise fun a b => b = ".." → a = ".."

theorem isNormal_of_notMem {parts : List String} (h : ".." ∉ parts) : IsNormal parts :=
  List.pairwise_of_forall_mem_list fun _ _ _ hb heq => absurd (heq ▸ hb) h

theorem isPart_of_mem_ofString {s p : String} (h : p ∈ (ofString s).parts) : IsPart p := by
  simp only [ofString, Text.fields, List.mem_filter, List.mem_map, Bool.and_eq_true,
    bne_iff_ne] at h
  obtain ⟨⟨f, hf, rfl⟩, hne⟩ := h
  exact ⟨hne.1, hne.2, by simpa using Text.notMem_of_mem_splitOn hf⟩

theorem anchorOf_of_head {s : List Char} (h : s.head? ≠ some '/') : anchorOf s = .relative := by
  unfold anchorOf
  split <;> simp_all

theorem toList_ofParts {parts : List String} (h : parts ≠ []) :
    (ofParts parts).toList = ['/'].intercalate (parts.map String.toList) := by
  cases parts with
  | nil => exact absurd rfl h
  | cons p r => simp [ofParts, text, Anchor.text]

theorem head_ofParts {parts : List String} (h : ∀ p ∈ parts, IsPart p) :
    (ofParts parts).toList.head? ≠ some '/' := by
  cases parts with
  | nil => decide
  | cons p r =>
    obtain ⟨hne, -, hslash⟩ := h p List.mem_cons_self
    rw [toList_ofParts (by simp)]
    cases hp : p.toList with
    | nil => exact absurd (String.toList_eq_nil_iff.mp hp) hne
    | cons c cs =>
      rw [hp, List.mem_cons, not_or] at hslash
      cases r <;> simp [hp, Ne.symm hslash.1]

theorem fields_ofParts {parts : List String} (hne : parts ≠ []) (h : ∀ p ∈ parts, IsPart p) :
    Text.fields '/' (ofParts parts) = parts := by
  have hsplit : Text.splitOn '/' (['/'].intercalate (parts.map String.toList)) =
      parts.map String.toList := by
    rw [Text.splitOn, Text.splitWhere_eq_splitOnP]
    refine List.splitOn_intercalate '/' (fun f hf => ?_) (by simpa using hne)
    obtain ⟨q, hq, rfl⟩ := List.mem_map.mp hf
    exact (h q hq).2.2
  have hid : String.ofList ∘ String.toList = id := by
    funext s
    exact String.ofList_toList
  rw [Text.fields, toList_ofParts hne, hsplit, List.map_map, hid, List.map_id]

@[simp] theorem ofString_ofParts {parts : List String} (h : ∀ p ∈ parts, IsPart p) :
    ofString (ofParts parts) = ⟨.relative, parts⟩ := by
  rw [ofString, anchorOf_of_head (head_ofParts h)]
  congr 1
  cases parts with
  | nil => rfl
  | cons p r =>
    rw [fields_ofParts (List.cons_ne_nil p r) h, List.filter_eq_self]
    intro q hq
    obtain ⟨hne, hdot, -⟩ := h q hq
    simp [hne, hdot]

theorem ofString_of_isPart {p : String} (h : IsPart p) : ofString p = ⟨.relative, [p]⟩ := by
  have hone : ofParts [p] = p := by simp [ofParts, text, Anchor.text]
  have hread := ofString_ofParts (List.forall_mem_singleton.mpr h)
  rwa [hone] at hread

theorem mem_resolveParts {absolute : Bool} {done parts : List String} {p : String}
    (h : p ∈ resolveParts ".." absolute done parts) : p ∈ done ∨ p ∈ parts := by
  induction parts generalizing done with
  | nil => exact .inl (by simpa [resolveParts] using h)
  | cons c r ih =>
    rw [resolveParts] at h
    split at h
    · rcases ih h with h | h
      · rcases List.mem_cons.mp h with rfl | h
        · exact .inr List.mem_cons_self
        · exact .inl h
      · exact .inr (List.mem_cons_of_mem _ h)
    · rcases ih h with h | h
      · exact .inl (List.mem_of_mem_tail h)
      · exact .inr (List.mem_cons_of_mem _ h)

theorem IsNormal.resolveParts {done parts : List String} (h : IsNormal done.reverse) :
    IsNormal (resolveParts ".." false done parts) := by
  induction parts generalizing done with
  | nil => exact h
  | cons c r ih =>
    rw [Path.resolveParts]
    split
    next hc =>
      refine ih ?_
      rw [List.reverse_cons, IsNormal, List.pairwise_append]
      refine ⟨h, List.pairwise_singleton _ _, fun a ha b hb hup => ?_⟩
      obtain rfl := List.mem_singleton.mp hb
      -- A parent mark is put down only behind another one, or first.
      cases done with
      | nil => simp at ha
      | cons d ds =>
        simp only [hup, bne_self_eq_false, List.isEmpty_cons, Bool.and_false, List.head?_cons,
          Bool.or_self, Bool.false_or, beq_iff_eq, Option.some.injEq] at hc
        rw [IsNormal, List.reverse_cons, List.pairwise_append] at h
        rcases List.mem_append.mp (by simpa using ha : a ∈ ds.reverse ++ [d]) with ha | ha
        · exact h.2.2 a ha d (List.mem_singleton_self d) hc
        · exact (List.mem_singleton.mp ha).trans hc
    next =>
      refine ih ?_
      cases done with
      | nil => exact h
      | cons d ds =>
        rw [IsNormal, List.reverse_cons, List.pairwise_append] at h
        exact h.1

theorem resolveParts_of_isNormal {done parts : List String}
    (h : IsNormal (done.reverse ++ parts)) :
    Path.resolveParts ".." false done parts = done.reverse ++ parts := by
  induction parts generalizing done with
  | nil => simp [Path.resolveParts]
  | cons c r ih =>
    have hkeep : (c != ".." || (!false && done.isEmpty) || done.head? == some "..") = true := by
      cases done with
      | nil => simp
      | cons d ds =>
        by_cases hc : c = ".."
        · have hd := (List.pairwise_append.mp h).2.2 d (by simp) c List.mem_cons_self hc
          simp [hd]
        · simp [hc]
    rw [Path.resolveParts, if_pos hkeep, ih (by simpa using h)]
    simp

theorem normalText_eq_ofParts {s : String} (h : s.toList.head? ≠ some '/') :
    ∃ parts, (∀ p ∈ parts, IsPart p) ∧ IsNormal parts ∧ normalText s = ofParts parts := by
  have ha : (ofString s).anchor = .relative := anchorOf_of_head h
  refine ⟨Path.resolveParts ".." false [] (ofString s).parts, fun p hp => ?_,
    IsNormal.resolveParts List.Pairwise.nil, ?_⟩
  · rcases mem_resolveParts hp with hp | hp
    · simp at hp
    · exact isPart_of_mem_ofString hp
  · simp only [normalText, normalise, ha, isAbsolute, ofParts]
    rfl

theorem normalText_ofParts {parts : List String} (h : ∀ p ∈ parts, IsPart p)
    (hn : IsNormal parts) : normalText (ofParts parts) = ofParts parts := by
  have := @resolveParts_of_isNormal [] parts (by simpa using hn)
  simp only [normalText, ofString_ofParts h, normalise, isAbsolute]
  simp only [bne_self_eq_false, this, List.reverse_nil, List.nil_append]
  rfl

end Path

end ChangeImpact
