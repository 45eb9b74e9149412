import ChangeImpact.Proofs.Path.Climbing

/-!
# Names of files

A name is its stem with its ending, and what is put together of a stem and an ending is cut there
again, whatever dots the stem holds. A path that is written for a name in a folder has that name.
-/

namespace ChangeImpact.Path

def IsEnding (ending : String) : Prop :=
  ending.toList.head? = some '.' ∧ ending.toList.tail ≠ [] ∧ '.' ∉ ending.toList.tail

instance (ending : String) : Decidable (IsEnding ending) := inferInstanceAs (Decidable (_ ∧ _))

theorem IsEnding.exists_toList {ending : String} (h : IsEnding ending) :
    ∃ after, after ≠ [] ∧ '.' ∉ after ∧ ending.toList = '.' :: after := by
  obtain ⟨hhead, htail, hdot⟩ := h
  exact ⟨_, htail, hdot, (List.cons_head?_tail hhead).symm⟩

section Cut

variable {s : String} {before after : List Char}

theorem cutName_of_toList (h : s.toList = before ++ '.' :: after) (hdot : '.' ∉ after) :
    cutName s = if after.isEmpty || before.isEmpty then (s, "")
      else (String.ofList before, String.ofList ('.' :: after)) := by
  have hafter : s.toList.rtakeWhile (· != '.') = after := by
    rw [h, List.append_cons]
    exact rtakeWhile_ne_append List.getLast?_concat hdot
  have hbefore : s.toList.take (s.length - after.length - 1) = before := by
    have hlength : s.length - after.length - 1 = before.length := by
      rw [← String.length_toList, h, List.length_append, List.length_cons]
      omega
    rw [hlength, h, List.take_left]
  have hmem : s.toList.contains '.' = true := by simp [h]
  rw [List.rtakeWhile] at hafter
  rw [cutName, hafter, hbefore, hmem, Bool.not_true, Bool.or_false]

theorem cutName_append {stem ending : String} (hstem : stem ≠ "") (hending : IsEnding ending) :
    cutName (stem ++ ending) = (stem, ending) := by
  obtain ⟨after, hafter, hdot, hlist⟩ := hending.exists_toList
  have hchars : (stem ++ ending).toList = stem.toList ++ '.' :: after := by
    rw [String.toList_append, hlist]
  have hne : (after.isEmpty || stem.toList.isEmpty) = false := by
    simpa [hafter] using hstem
  rw [cutName_of_toList hchars hdot, hne, ← hlist, String.ofList_toList, String.ofList_toList]
  rfl

theorem cutName_cases (s : String) : cutName s = (s, "") ∨
    ∃ stem ending, stem ≠ "" ∧ IsEnding ending ∧ s = stem ++ ending ∧ cutName s = (stem, ending) := by
  by_cases hmem : '.' ∈ s.toList
  · obtain ⟨after, before, hrev, hdot⟩ := List.eq_append_cons_of_mem (List.mem_reverse.mpr hmem)
    have hchars : s.toList = before.reverse ++ '.' :: after.reverse := by
      rw [← List.reverse_reverse s.toList, hrev]
      simp
    have hcut := cutName_of_toList hchars (by simpa using hdot)
    by_cases hempty : (after.reverse.isEmpty || before.reverse.isEmpty) = true
    · rw [if_pos hempty] at hcut
      exact .inl hcut
    · rw [if_neg hempty] at hcut
      refine .inr ⟨_, _, ?_, ?_, ?_, hcut⟩
      · simpa using fun heq => hempty (by simp [heq])
      · rw [IsEnding, String.toList_ofList]
        refine ⟨rfl, fun heq => hempty ?_, by simpa using hdot⟩
        simp [List.reverse_eq_nil_iff.mp heq]
      · rw [← String.ofList_append, ← hchars, String.ofList_toList]
  · exact .inl (by simp [cutName, hmem])

theorem fst_cutName_ne {name : String} (h : name ≠ "") : (cutName name).1 ≠ "" := by
  obtain hcut | ⟨stem, ending, hstem, -, -, hcut⟩ := cutName_cases name
  · rwa [hcut]
  · rwa [hcut]

theorem cutName_append_snd (name : String) : (cutName name).1 ++ (cutName name).2 = name := by
  obtain hcut | ⟨stem, ending, -, -, rfl, hcut⟩ := cutName_cases name
  · rw [hcut, String.append_empty]
  · rw [hcut]

theorem snd_cutName_cases (name : String) : (cutName name).2 = "" ∨ IsEnding (cutName name).2 := by
  obtain hcut | ⟨stem, ending, -, hending, -, hcut⟩ := cutName_cases name
  · exact .inl (by rw [hcut])
  · exact .inr (by rwa [hcut])

end Cut

section Written

variable {p : Path} {name : String}

theorem name_mem_parts (h : p.name ≠ "") : p.name ∈ p.parts := by
  rw [name] at h ⊢
  cases hlast : p.parts.getLast? with
  | none =>
    rw [hlast] at h
    exact absurd rfl h
  | some q => exact List.mem_of_getLast? hlast

theorem isPart_name {s : String} (h : (ofString s).name ≠ "") : IsPart (ofString s).name :=
  isPart_of_mem_ofString (name_mem_parts h)

theorem toList_text (h : p.parts ≠ []) :
    p.text.toList = p.anchor.text.toList ++ (ofParts p.parts).toList := by
  obtain ⟨anchor, parts⟩ := p
  cases parts with
  | nil => exact absurd rfl h
  | cons q r => cases anchor <;> simp [text, ofParts, Anchor.text]

theorem anchorOf_append {s : List Char} (h : s.head? ≠ some '/') (a : Anchor) :
    anchorOf (a.text.toList ++ s) = a := by
  cases a with
  | relative => exact anchorOf_of_head h
  | root =>
    cases s with
    | nil => rfl
    | cons c r =>
      have hc : c ≠ '/' := by simpa using h
      simp [anchorOf, Anchor.text, hc]
  | doubleRoot =>
    cases s with
    | nil => rfl
    | cons c r =>
      have hc : c ≠ '/' := by simpa using h
      simp [anchorOf, Anchor.text, hc]

theorem parts_text (h : ∀ q ∈ p.parts, IsPart q) (hne : p.parts ≠ []) :
    (ofString p.text).parts = p.parts := by
  obtain ⟨blank, hanchor, hslash, hblank⟩ : ∃ blank : List String,
      p.anchor.text.toList = slashed blank ∧ (∀ q ∈ blank, '/' ∉ q.toList) ∧
        blank.filter isKeptPart = [] := by
    cases p.anchor with
    | relative => exact ⟨[], rfl, by decide, rfl⟩
    | root => exact ⟨[""], rfl, by decide, by decide⟩
    | doubleRoot => exact ⟨["", ""], rfl, by decide, by decide⟩
  rw [← String.ofList_toList (s := p.text), toList_text hne, hanchor, parts_slashed hslash, hblank,
    List.nil_append, String.ofList_toList, ofString_ofParts h]

theorem ofString_text (h : ∀ q ∈ p.parts, IsPart q) (hne : p.parts ≠ []) :
    ofString p.text = p := by
  have hanchor : (ofString p.text).anchor = p.anchor := by
    rw [ofString, toList_text hne, anchorOf_append (head_ofParts h)]
  calc ofString p.text = ⟨(ofString p.text).anchor, (ofString p.text).parts⟩ := rfl
    _ = p := by rw [hanchor, parts_text h hne]

theorem child_of_relative {s : String} (h : (ofString s).isAbsolute = false) (p : Path) :
    p.child s = ⟨p.anchor, p.parts ++ (ofString s).parts⟩ := by
  rw [child, join, h]
  rfl

theorem child_of_isPart (p : Path) (h : IsPart name) :
    p.child name = ⟨p.anchor, p.parts ++ [name]⟩ := by
  have hread := ofString_of_isPart h
  rw [child_of_relative (by rw [hread]; rfl), hread]

theorem isPart_child (hp : ∀ q ∈ p.parts, IsPart q) (h : IsPart name) :
    ∀ q ∈ (p.child name).parts, IsPart q := by
  rw [child_of_isPart p h]
  exact List.forall_mem_append.mpr ⟨hp, List.forall_mem_singleton.mpr h⟩

theorem name_child (h : IsPart name) : (p.child name).name = name := by
  rw [child_of_isPart p h, Path.name, List.getLast?_concat, Option.getD_some]

theorem parent_child (h : IsPart name) : (p.child name).parent = p := by
  rw [child_of_isPart p h, parent, List.dropLast_concat]

theorem ofString_text_child (hp : ∀ q ∈ p.parts, IsPart q) (h : IsPart name) :
    ofString (p.child name).text = p.child name := by
  refine ofString_text (isPart_child hp h) ?_
  rw [child_of_isPart p h]
  exact List.concat_ne_nil name p.parts

end Written

end ChangeImpact.Path
