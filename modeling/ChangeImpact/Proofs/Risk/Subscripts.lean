import ChangeImpact.Proofs.Risk.Brackets
import ChangeImpact.Proofs.Risk.DroppedAwaits
import ChangeImpact.Proofs.Risk.Joined

/-!
# Subscripts and arrays

A property in brackets begins an array, or it is a subscript of what stands before the bracket. The
scan goes by the end of the text before the bracket, where a list of marks and the word `return`
stand for the beginning of a value. A bracket behind an identifier is taken for an array just where
the identifier ends with that word, be it longer or not: `takenForArray_iff`.
-/

namespace ChangeImpact.Risk.Warning

open Text Imports

def inIdentifier (c : Char) : Bool := isNamePart c || (128 ≤ c.toNat && !isBlank c)

structure IsIdentifierBehind (before ident : List Char) : Prop where
  ne_nil : ident ≠ []
  isPart : ∀ c ∈ ident, inIdentifier c = true
  apart : ∀ c ∈ before.getLast?, inIdentifier c = false

theorem isIdentifierBehind_of_last {before ident : List Char} {d : Char} (hne : ident ≠ [])
    (hident : ident.all inIdentifier = true) (hlast : before.getLast? = some d)
    (hd : inIdentifier d = false) : IsIdentifierBehind before ident := by
  refine ⟨hne, List.all_eq_true.mp hident, fun c hc => ?_⟩
  rw [hlast] at hc
  exact Option.some.inj hc ▸ hd

structure ArrayPlace where
  line : Int
  place : Nat
  spread : Bool
  property : List Char

def ArrayPlace.warning (path : String) (a : ArrayPlace) : Warning :=
  ⟨.arrayFromProperty, path, a.line, arrayMessage a.spread a.property⟩

def arrayPlaces (h : Hunk) : List ArrayPlace :=
  h.numberedAdditions.flatMap fun (line, text) =>
    ((findAll bracketed text.toList).filter fun find => beginsArray (text.toList.take find.1)).map
      fun (place, spread, property) => ⟨line, place, spread, property⟩

def TakenForArray (h : Hunk) (line : Int) (place : Nat) : Prop :=
  ∃ a ∈ arrayPlaces h, a.line = line ∧ a.place = place

variable {path : String} {h : Hunk} {line : Int} {text : String} {ws vs : List Warning}
  {before ident s : List Char} {c : Char}

section Told

theorem arraysFromProperties_eq (path : String) (h : Hunk) :
    arraysFromProperties path h = (arrayPlaces h).map (·.warning path) := by
  rw [arraysFromProperties, arrayPlaces, List.map_flatMap]
  refine List.flatMap_congr fun a _ => ?_
  rw [List.map_map, ← List.filterMap_eq_map, List.filterMap_filter]
  rfl

/-- The warnings of arrays in a scan are those of the brackets that are taken for one, in their
order. -/
theorem filter_scan {diff : String} {ds : List FileDiff} (hread : Diff.read diff = .ok ds) :
    ∃ ws, scan diff = .ok ws ∧ ws.filter (·.kind = .arrayFromProperty) =
      ds.flatMap fun d => d.hunks.flatMap fun h => (arrayPlaces h).map (·.warning d.path) := by
  refine ⟨ds.flatMap ofFile, by rw [scan, hread]; rfl, ?_⟩
  rw [List.filter_flatMap]
  refine List.flatMap_congr fun d _ => ?_
  rw [ofFile, List.filter_flatMap]
  refine List.flatMap_congr fun h _ => ?_
  rw [filter_ofHunk, arraysFromProperties_eq]

end Told

section Places

theorem mem_arrayPlaces {a : ArrayPlace} : a ∈ arrayPlaces h ↔
    ∃ text u v behind, (a.line, text) ∈ h.numberedAdditions ∧ u ++ v = text.toList ∧
      a.place = u.length ∧ Encloses a.spread a.property behind v ∧ beginsArray u = true := by
  simp only [arrayPlaces, List.mem_flatMap, List.mem_map, List.mem_filter, Prod.exists,
    apart_bracketed.mem_findAll_place, bracketed_eq_some]
  constructor
  · rintro ⟨line, text, hmem, place, spread, property,
      ⟨⟨u, v, huv, -, rfl, -, behind, hencloses, -⟩, hbegins⟩, rfl⟩
    rw [← huv, List.take_left] at hbegins
    exact ⟨text, u, v, behind, hmem, huv, rfl, hencloses, hbegins⟩
  · rintro ⟨text, u, v, behind, hmem, huv, hplace, hencloses, hbegins⟩
    obtain ⟨within, rfl, -⟩ := hencloses.within
    refine ⟨a.line, text, hmem, a.place, a.spread, a.property,
      ⟨⟨u, _, huv, List.cons_ne_nil _ _, hplace, _, behind, hencloses, rfl⟩, ?_⟩, rfl⟩
    rwa [hplace, ← huv, List.take_left]

theorem takenForArray_place (hmem : (line, text) ∈ h.numberedAdditions)
    (htext : text.toList = before ++ s) : TakenForArray h line before.length ↔
      beginsArray before = true ∧ ∃ spread property behind, Encloses spread property behind s := by
  simp only [TakenForArray, mem_arrayPlaces]
  constructor
  · rintro ⟨a, ⟨text', u, v, behind, hmem', huv, hplace, hencloses, hbegins⟩, rfl, hlength⟩
    obtain rfl := Hunk.text_unique hmem hmem'
    obtain ⟨rfl, rfl⟩ := List.append_inj (huv.trans htext) (hplace.symm.trans hlength)
    exact ⟨hbegins, _, _, _, hencloses⟩
  · rintro ⟨hbegins, spread, property, behind, hencloses⟩
    exact ⟨⟨line, before.length, spread, property⟩,
      ⟨text, before, s, behind, hmem, htext.symm, rfl, hencloses, hbegins⟩, rfl, rfl⟩

end Places

section Contexts

theorem isBlank_of_inIdentifier (hc : inIdentifier c = true) : isBlank c = false := by
  rw [inIdentifier, Bool.or_eq_true, Bool.and_eq_true] at hc
  rcases hc with hc | ⟨-, hc⟩
  · exact isBlank_of_isNamePart hc
  · simpa using hc

theorem beginsArray_concat (hc : isBlank c = false) (s : List Char) :
    beginsArray (s ++ [c]) = true ↔ ∃ context ∈ literalContexts, context <:+ s ++ [c] := by
  have htrim : trimRight isBlank (s ++ [c]) = s ++ [c] := trimRight_append_cons hc s []
  rw [beginsArray, htrim]
  simp

theorem getLast?_of_suffix {context : List Char} {p : Char → Bool}
    (hcontext : context.getLast?.any p = true) (hsuffix : context <:+ s ++ [c]) : p c = true := by
  obtain ⟨front, hfront⟩ := hsuffix
  obtain ⟨d, hd, hp⟩ := (Option.any_eq_true _ _).mp hcontext
  have hlast := congrArg List.getLast? hfront
  rw [List.getLast?_append, hd, List.getLast?_concat, Option.some_or] at hlast
  rwa [← Option.some.inj hlast]

/-- Behind an identifier no mark counts, and of its end the word for what is returned. -/
theorem beginsArray_identifier (hident : IsIdentifierBehind before ident) :
    beginsArray (before ++ ident) = true ↔ "return".toList <:+ ident := by
  have hcontexts : ∀ context ∈ literalContexts, context = "return".toList ∨
      context.getLast?.any (fun d => !inIdentifier d) = true := by decide
  have hword : "return".toList.all inIdentifier = true := by decide
  obtain ⟨w, c, hwc⟩ := (List.eq_nil_or_concat ident).resolve_left hident.ne_nil
  rw [List.concat_eq_append] at hwc
  have hc : inIdentifier c = true := hident.isPart c (by simp [hwc])
  have hwhole : before ++ ident = before ++ w ++ [c] := by rw [hwc, List.append_assoc]
  rw [hwhole, beginsArray_concat (isBlank_of_inIdentifier hc)]
  constructor
  · rintro ⟨context, hcontext, hsuffix⟩
    have hreturn : context = "return".toList := by
      refine (hcontexts context hcontext).resolve_right fun hmark => ?_
      have hnot := getLast?_of_suffix hmark hsuffix
      rw [hc] at hnot
      cases hnot
    subst hreturn
    rw [← hwhole] at hsuffix
    rcases List.suffix_or_suffix_of_suffix hsuffix (List.suffix_append before ident) with
      hwithin | ⟨front, hfront⟩
    · exact hwithin
    -- If the word were longer than the identifier, the text before would end with a part of it.
    · obtain ⟨x, hx⟩ := hsuffix
      rw [← hfront, ← List.append_assoc, List.append_cancel_right_eq] at hx
      rcases List.eq_nil_or_concat front with rfl | ⟨y, d, rfl⟩
      · rw [← hfront, List.nil_append]
      · have hd : inIdentifier d = true := List.all_eq_true.mp hword d (by simp [← hfront])
        have happart := hident.apart d (by simp [← hx])
        rw [hd] at happart
        cases happart
  · intro hsuffix
    refine ⟨"return".toList, by decide, ?_⟩
    rw [← hwhole]
    exact hsuffix.trans (List.suffix_append before ident)

theorem beginsArray_optional (s : List Char) : beginsArray (s ++ "?.".toList) = false := by
  have hcontexts : ∀ context ∈ literalContexts, context.getLast?.any (· != '.') = true := by decide
  have hwhole : s ++ "?.".toList = s ++ ['?'] ++ ['.'] := by simp
  rw [← Bool.not_eq_true, hwhole, beginsArray_concat (by decide)]
  rintro ⟨context, hcontext, hsuffix⟩
  exact absurd (getLast?_of_suffix (hcontexts context hcontext) hsuffix) (by decide)

end Contexts

/-- A scan warns of arrays at just the brackets that are taken for one. A bracket directly behind an
identifier, or behind an optional step from it, is one of them only where it holds a property, no
step stands before it and the identifier ends with the word for what is returned. -/
theorem takenForArray_iff (h : Hunk) (line : Int) (text : String)
    (hmem : (line, text) ∈ h.numberedAdditions) (before ident step rest : List Char)
    (htext : text.toList = before ++ (ident ++ (step ++ '[' :: rest)))
    (hident : IsIdentifierBehind before ident) (hstep : step = [] ∨ step = "?.".toList) :
    (∀ diff ds, Diff.read diff = .ok ds → ∃ ws, scan diff = .ok ws ∧
      ws.filter (·.kind = .arrayFromProperty) =
        ds.flatMap fun d => d.hunks.flatMap fun h => (arrayPlaces h).map (·.warning d.path)) ∧
    (TakenForArray h line (before ++ (ident ++ step)).length ↔ step = [] ∧
      "return".toList <:+ ident ∧
        ∃ spread property behind, Encloses spread property behind ('[' :: rest)) := by
  refine ⟨fun diff ds hread => filter_scan hread, ?_⟩
  rw [takenForArray_place hmem (s := '[' :: rest) (by rw [htext]; simp), ← List.append_assoc]
  rcases hstep with rfl | rfl
  · rw [List.append_nil, beginsArray_identifier hident, and_iff_right rfl]
  · rw [beginsArray_optional]
    simp

def subscripted : Hunk := replacing ["x = 1;"] ["const v = returned[opts.index];"]

theorem takenForArray_subscripted : ¬ TakenForArray subscripted 1 18 ∧
    (∃ spread property behind, Encloses spread property behind "[opts.index];".toList) := by
  have hmem := mem_numberedAdditions_replacing "x = 1;" "const v = returned[opts.index];"
  have hident : IsIdentifierBehind "const v = ".toList "returned".toList :=
    isIdentifierBehind_of_last (d := ' ') (by decide) (by decide) (by decide) (by decide)
  have hencloses : bracketed none "[opts.index];".toList =
      some ((false, "opts.index".toList), 12) := by decide +kernel
  obtain ⟨behind, hencloses, -⟩ := bracketed_eq_some.mp hencloses
  refine ⟨fun htaken => ?_, _, _, behind, hencloses⟩
  have hiff := (takenForArray_iff subscripted 1 _ hmem "const v = ".toList "returned".toList []
    "opts.index];".toList (by decide +kernel) hident (.inl rfl)).2
  exact absurd (hiff.mp htaken).2.1 (by decide)

def addingDiff (line : String) : String :=
  "diff --git a/a.js b/a.js\n@@ -1 +1 @@\n-x = 1;\n+" ++ line ++ "\n"

theorem noreturn_takenForArray :
    IsIdentifierBehind "const v = ".toList "noreturn".toList ∧ "noreturn" ≠ "return" ∧
    TakenForArray (replacing ["x = 1;"] ["const v = noreturn[a.b];"]) 1
      ("const v = ".toList ++ "noreturn".toList).length ∧
    (scan (addingDiff "const v = noreturn[a.b];")).map (·.map fun w => (w.kind, w.path, w.line)) =
      .ok [(.arrayFromProperty, "a.js", 1)] := by
  have hmem := mem_numberedAdditions_replacing "x = 1;" "const v = noreturn[a.b];"
  have hident : IsIdentifierBehind "const v = ".toList "noreturn".toList :=
    isIdentifierBehind_of_last (d := ' ') (by decide) (by decide) (by decide) (by decide)
  have hencloses : bracketed none "[a.b];".toList = some ((false, "a.b".toList), 5) := by
    decide +kernel
  obtain ⟨behind, hencloses, -⟩ := bracketed_eq_some.mp hencloses
  refine ⟨hident, by decide, (takenForArray_place hmem (s := "[a.b];".toList) ?_).mpr
    ⟨(beginsArray_identifier hident).mpr (by decide), _, _, _, hencloses⟩, by decide +kernel⟩
  decide +kernel

end ChangeImpact.Risk.Warning
