import ChangeImpact.Proofs.Imports.Inside

/-!
# Specifiers that lead from one file to another

The relative path from the folder of a file to another file goes up to where the two part and then
down. Read as a specifier in the first file it leads to the second, and so does the path of the
second from the root of the repository, whatever dots the names on the way contain.
-/

namespace ChangeImpact

namespace Path

section Way

def way : List String → List String → List String
  | d :: dirs, p :: parts =>
    if d = p then way dirs parts else List.replicate (dirs.length + 1) ".." ++ p :: parts
  | dirs, parts => List.replicate dirs.length ".." ++ parts

def wayText (dirs parts : List String) : String := ofParts (way dirs parts)

variable {dirs parts : List String}

theorem exists_way (dirs parts : List String) : ∃ common up down, dirs = common ++ up ∧
    parts = common ++ down ∧ way dirs parts = List.replicate up.length ".." ++ down := by
  induction dirs, parts using way.induct with
  | case1 dirs p parts ih =>
    obtain ⟨common, up, down, rfl, rfl, hway⟩ := ih
    exact ⟨p :: common, up, down, rfl, rfl, by rw [way, if_pos rfl, hway]⟩
  | case2 d dirs p parts hne =>
    exact ⟨[], d :: dirs, p :: parts, rfl, rfl, by rw [way, if_neg hne, List.length_cons]⟩
  | case3 dirs parts hnone =>
    refine ⟨[], dirs, parts, rfl, rfl, ?_⟩
    cases dirs with
    | nil => simp [way]
    | cons d dirs =>
      cases parts with
      | nil => simp [way]
      | cons p parts => exact absurd rfl (hnone d dirs p parts rfl)

/-- Who goes the way from a folder to a path arrives there. -/
theorem resolveParts_way (hdirs : ".." ∉ dirs) (hparts : ".." ∉ parts) :
    resolveParts ".." false [] (dirs ++ way dirs parts) = parts := by
  obtain ⟨common, up, down, rfl, rfl, hway⟩ := exists_way dirs parts
  have hdown : ".." ∉ down := fun hmem => hparts (List.mem_append_right _ hmem)
  rw [hway, resolveParts_climb hdirs hdown, List.length_append, Nat.add_sub_cancel,
    List.take_left, Nat.sub_eq_zero_of_le (Nat.le_add_left _ _)]
  rfl

theorem mem_way {p : String} (h : p ∈ way dirs parts) : p = ".." ∨ p ∈ parts := by
  obtain ⟨common, up, down, -, rfl, hway⟩ := exists_way dirs parts
  rw [hway, List.mem_append] at h
  cases h with
  | inl hup => exact .inl (List.eq_of_mem_replicate hup)
  | inr hdown => exact .inr (List.mem_append_right _ hdown)

theorem isPart_way (h : ∀ p ∈ parts, IsPart p) : ∀ p ∈ way dirs parts, IsPart p := by
  intro p hp
  cases mem_way hp with
  | inl hup =>
    rw [hup]
    decide
  | inr hdown => exact h p hdown

end Way

theorem notMem_ofParts {c : Char} (hslash : c ≠ '/') (hdot : c ≠ '.') (parts : List String) :
    c ∉ (ofParts parts).toList ↔ ∀ p ∈ parts, c ∉ p.toList := by
  cases parts with
  | nil =>
    refine iff_of_true ?_ (List.forall_mem_nil _)
    simpa [ofParts, text, Anchor.text] using hdot
  | cons p r =>
    have hslashed : c ∈ (ofParts (p :: r)).toList ↔ c ∈ slashed (p :: r) := by
      rw [← slashed_ofParts (List.cons_ne_nil p r), List.mem_append, List.mem_singleton]
      simp only [hslash, or_false]
    rw [hslashed, slashed, List.mem_flatMap]
    simp [hslash]

end Path

namespace Imports.Resolver

open ChangeImpact.Path

variable {r : Resolver} {specifier referencer target : String} {parts : List String}

theorem IsInside.exists_parts (h : IsInside target) :
    ∃ parts, (∀ p ∈ parts, IsPart p) ∧ parts ≠ [] ∧ ".." ∉ parts ∧ target = ofParts parts := by
  have hne : Text.fields '/' target ≠ [] := by
    rw [Text.fields, Text.splitOn, Text.splitWhere_eq_splitOnP, ne_eq, List.map_eq_nil_iff]
    exact List.splitOnP_ne_nil _ _
  refine ⟨Text.fields '/' target, fun p hp => ?_, hne, fun hup => (h.down _ hup).2.2 rfl, ?_⟩
  · obtain ⟨hempty, hdot, -⟩ := h.down p hp
    obtain ⟨f, hf, rfl⟩ := List.mem_map.mp hp
    exact ⟨hempty, hdot, by simpa using Text.notMem_of_mem_splitOn hf⟩
  · apply String.toList_injective
    rw [toList_ofParts hne, Text.intercalate_fields]

theorem isRelative_of_head (h : specifier.toList.head? = some '.' ∨
    specifier.toList.head? = some '/') : isRelative specifier = true := by
  rw [isRelative]
  cases hl : specifier.toList with
  | nil => simp [hl] at h
  | cons c s =>
    rw [hl, List.head?_cons, Option.some.injEq, Option.some.injEq] at h
    rcases h with rfl | rfl <;> rfl

theorem withoutQuery_of_notMem (h : '?' ∉ specifier.toList) :
    withoutQuery specifier = specifier := by
  have hkeep : ∀ c ∈ specifier.toList, (c != '?') = true := fun c hc =>
    bne_iff_ne.mpr (ne_of_mem_of_not_mem hc h)
  rw [withoutQuery, List.takeWhile_eq_self_iff.mpr hkeep, String.ofList_toList]

theorem normalise_of_hasPathForm (h : hasPathForm specifier.toList = true) :
    normalise specifier = specifier := by
  rw [normalise, if_pos h]

theorem base_of_relative {dirs : List String} {name : String}
    (h : ∀ p ∈ dirs ++ [name], IsPart p) (hform : hasPathForm specifier.toList = true)
    (hquery : '?' ∉ specifier.toList) (hslash : specifier.toList.head? ≠ some '/') :
    base specifier (ofParts (dirs ++ [name])) =
      ofParts (resolveParts ".." false [] (dirs ++ (ofString specifier).parts)) := by
  have htext := toList_joinText_directory h hslash
  have hdirs : ∀ p ∈ dirs, IsPart p := fun p hp => h p (List.mem_append_left _ hp)
  have hparts : (ofString (joinText (directoryText (ofParts (dirs ++ [name]))) specifier)).parts =
      dirs ++ (ofString specifier).parts := by
    have hread := parts_slashed (fun p hp => (hdirs p hp).2.2) specifier.toList
    rw [filter_isKeptPart hdirs, String.ofList_toList, ← htext, String.ofList_toList] at hread
    exact hread
  have hanchor : (joinText (directoryText (ofParts (dirs ++ [name]))) specifier).toList.head? ≠
      some '/' :=
    head_joinText (head_of_isPrefix (directoryText_isPrefix _) (head_ofParts h)) hslash
  delta base
  dsimp only
  rw [withoutQuery_of_notMem hquery, normalise_of_hasPathForm hform]
  split
  next r heq =>
    rw [heq] at hslash
    exact absurd rfl hslash
  next =>
    rw [normalText, Path.normalise, hparts, ofString, anchorOf_of_head hanchor, isAbsolute]
    rfl

theorem resolve?_base (hrelative : isRelative specifier = true) (hinside : IsInside target)
    (hbase : base specifier referencer = target) (hne : target ≠ referencer)
    (hknown : r.verify = true → r.isFile target = true) :
    r.resolve? specifier referencer = some target := by
  obtain ⟨parts, hparts, hnil, hup, rfl⟩ := hinside.exists_parts
  refine resolve?_eq_some.mpr ⟨hrelative, ?_, hne⟩
  obtain ⟨rest, hrest⟩ : ∃ rest, choices parts = parts :: rest := by
    rcases List.eq_nil_or_concat parts with rfl | ⟨init, last, rfl⟩
    · exact absurd rfl hnil
    · rw [List.concat_eq_append, choices_concat]
      exact ⟨_, rfl⟩
  have hstays : staysInside (ofParts parts) = true := staysInside_of_parts hparts hnil hup
  rw [candidates_of_base hparts (isNormal_of_notMem hup) hbase, hrest, List.filter_cons, if_pos hstays, List.map_cons]
  refine List.find?_cons_of_pos ?_
  cases hv : r.verify with
  | false => rfl
  | true => simpa using hknown hv

section Specifiers

def marked (path : String) : String :=
  if "../".toList.isPrefixOf path.toList then path else "./" ++ path

def relativeSpecifier (referencer target : String) : String :=
  marked (wayText (folders referencer) (ofString target).parts)

def rootedSpecifier (target : String) : String := "/" ++ target

theorem marked_cases (path : String) :
    "../".toList <+: (marked path).toList ∧ marked path = path ∨
      (marked path).toList = slashed ["."] ++ path.toList := by
  rw [marked]
  split
  next hup => exact .inl ⟨List.isPrefixOf_iff_prefix.mp hup, rfl⟩
  next => exact .inr String.toList_append

theorem parts_marked (path : String) : (ofString (marked path)).parts = (ofString path).parts := by
  obtain ⟨-, heq⟩ | hlist := marked_cases path
  · rw [heq]
  · have hdot : ∀ p ∈ ["."], '/' ∉ p.toList := by decide
    have hread := parts_slashed hdot path.toList
    rwa [← hlist, String.ofList_toList, String.ofList_toList] at hread

/-- The dots in front are those of a path, so that they are not taken for a dotted specifier. -/
theorem hasPathForm_marked (path : String) : hasPathForm (marked path).toList = true := by
  rw [hasPathForm, List.any_eq_true]
  obtain ⟨hup, -⟩ | hlist := marked_cases path
  · exact ⟨"../", by decide, List.isPrefixOf_iff_prefix.mpr hup⟩
  · exact ⟨"./", by decide, by rw [hlist]; rfl⟩

theorem head?_marked (path : String) : (marked path).toList.head? = some '.' := by
  obtain ⟨⟨rest, hrest⟩, -⟩ | hlist := marked_cases path
  · rw [← hrest]
    rfl
  · rw [hlist]
    rfl

theorem notMem_marked {c : Char} (hdot : c ≠ '.') (hslash : c ≠ '/') {path : String}
    (h : c ∉ path.toList) : c ∉ (marked path).toList := by
  obtain ⟨-, heq⟩ | hlist := marked_cases path
  · rwa [heq]
  · rw [hlist]
    simpa [slashed, hdot, hslash] using h

theorem notMem_wayText {c : Char} (hslash : c ≠ '/') (hdot : c ≠ '.') {dirs : List String}
    (h : c ∉ (ofParts parts).toList) : c ∉ (wayText dirs parts).toList := by
  rw [notMem_ofParts hslash hdot] at h
  rw [wayText, notMem_ofParts hslash hdot]
  intro p hp
  cases mem_way hp with
  | inl hup =>
    rw [hup]
    simpa using hdot
  | inr hdown => exact h p hdown

variable {dirs : List String} {name : String}

theorem base_relativeSpecifier (h : ∀ p ∈ dirs ++ [name], IsPart p) (hup : ".." ∉ dirs)
    (hparts : ∀ p ∈ parts, IsPart p) (hdown : ".." ∉ parts) (hquery : '?' ∉ (ofParts parts).toList) :
    base (relativeSpecifier (ofParts (dirs ++ [name])) (ofParts parts)) (ofParts (dirs ++ [name])) =
      ofParts parts := by
  have hspecifier : relativeSpecifier (ofParts (dirs ++ [name])) (ofParts parts) =
      marked (wayText dirs parts) := by
    rw [relativeSpecifier, folders_ofParts h, ofString_ofParts hparts, List.dropLast_concat]
  have hslash : (marked (wayText dirs parts)).toList.head? ≠ some '/' := by
    rw [head?_marked]
    decide
  have hnone : '?' ∉ (marked (wayText dirs parts)).toList :=
    notMem_marked (by decide) (by decide) (notMem_wayText (by decide) (by decide) hquery)
  rw [hspecifier, base_of_relative h (hasPathForm_marked _) hnone hslash, parts_marked, wayText,
    ofString_ofParts (isPart_way hparts), resolveParts_way hup hdown]

theorem toList_rootedSpecifier (target : String) :
    (rootedSpecifier target).toList = '/' :: target.toList := String.toList_append

theorem base_rootedSpecifier (referencer : String) (hparts : ∀ p ∈ parts, IsPart p)
    (hup : ".." ∉ parts) (hquery : '?' ∉ (ofParts parts).toList) :
    base (rootedSpecifier (ofParts parts)) referencer = ofParts parts := by
  have hlist := toList_rootedSpecifier (ofParts parts)
  have hform : hasPathForm (rootedSpecifier (ofParts parts)).toList = true := by
    rw [hlist, hasPathForm, List.any_eq_true]
    exact ⟨"/", by decide, rfl⟩
  have hnone : '?' ∉ (rootedSpecifier (ofParts parts)).toList := by
    rw [hlist, List.mem_cons, not_or]
    exact ⟨by decide, hquery⟩
  have hbare : (ofParts parts).toList.dropWhile (· == '/') = (ofParts parts).toList := by
    have hhead := head_ofParts hparts
    cases hl : (ofParts parts).toList with
    | nil => rfl
    | cons c s =>
      rw [hl, List.head?_cons, ne_eq, Option.some.injEq] at hhead
      rw [List.dropWhile_cons, if_neg (by simpa using hhead)]
  delta base
  dsimp only
  rw [withoutQuery_of_notMem hnone, normalise_of_hasPathForm hform, hlist]
  change normalText (String.ofList ((ofParts parts).toList.dropWhile (· == '/'))) = ofParts parts
  rw [hbare, String.ofList_toList, normalText_ofParts hparts (isNormal_of_notMem hup)]

end Specifiers

/-- A file is found from another one by the relative path between them and by its path from the
root. -/
theorem resolve?_way (r : Resolver) {referencer target : String} (hreferencer : IsInside referencer)
    (htarget : IsInside target) (hne : target ≠ referencer) (hquery : '?' ∉ target.toList)
    (hknown : r.verify = true → r.isFile target = true) :
    r.resolve? (relativeSpecifier referencer target) referencer = some target ∧
      r.resolve? (rootedSpecifier target) referencer = some target := by
  obtain ⟨dirs, hdirs, hnil, hup, rfl⟩ := hreferencer.exists_parts
  obtain ⟨parts, hparts, -, hdown, rfl⟩ := htarget.exists_parts
  obtain ⟨dirs, name, rfl⟩ : ∃ init last, dirs = init ++ [last] := by
    rcases List.eq_nil_or_concat dirs with rfl | ⟨init, last, rfl⟩
    · exact absurd rfl hnil
    · exact ⟨init, last, List.concat_eq_append⟩
  rw [List.mem_append, not_or] at hup
  constructor
  · refine resolve?_base ?_ htarget (base_relativeSpecifier hdirs hup.1 hparts hdown hquery) hne
      hknown
    exact isRelative_of_head (.inl (head?_marked _))
  · refine resolve?_base ?_ htarget (base_rootedSpecifier _ hparts hdown hquery) hne hknown
    exact isRelative_of_head (.inr (by rw [toList_rootedSpecifier, List.head?_cons]))

/-- The folder of the one file is named like a dotted specifier and holds a query mark. -/
theorem resolve?_way_dots : IsInside "..a?/b/x.py" ∧ IsInside "..a.b/.c" ∧
    "..a.b/.c" ≠ "..a?/b/x.py" ∧ '?' ∉ "..a.b/.c".toList ∧
    (true = true → ["..a.b/.c", "..a.b/.c.py"].contains "..a.b/.c" = true) ∧
    relativeSpecifier "..a?/b/x.py" "..a.b/.c" = "../../..a.b/.c" ∧
    resolve? ⟨["..a.b/.c", "..a.b/.c.py"].contains, true⟩
      (relativeSpecifier "..a?/b/x.py" "..a.b/.c") "..a?/b/x.py" = some "..a.b/.c" ∧
    resolve? ⟨["..a.b/.c", "..a.b/.c.py"].contains, true⟩ (rootedSpecifier "..a.b/.c")
      "..a?/b/x.py" = some "..a.b/.c" := by
  have hreferencer : IsInside "..a?/b/x.py" := ⟨by decide, by decide, by decide⟩
  have htarget : IsInside "..a.b/.c" := ⟨by decide, by decide, by decide⟩
  have hne : "..a.b/.c" ≠ "..a?/b/x.py" := by decide
  have hquery : '?' ∉ "..a.b/.c".toList := by decide
  have hknown : true = true → ["..a.b/.c", "..a.b/.c.py"].contains "..a.b/.c" = true := by decide
  exact ⟨hreferencer, htarget, hne, hquery, hknown, by decide +kernel,
    resolve?_way ⟨["..a.b/.c", "..a.b/.c.py"].contains, true⟩ hreferencer htarget hne hquery hknown⟩

end Imports.Resolver

end ChangeImpact
