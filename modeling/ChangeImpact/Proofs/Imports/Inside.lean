import ChangeImpact.Proofs.Imports.Dotted

/-!
# Imports stay inside the repository

Whatever a specifier says, it leads to a file below the root of the repository or nowhere. Of the
paths that it may mean it leads to the first that lies inside, and, where files are verified, to
the first of these that is known.
-/

namespace ChangeImpact.Imports.Resolver

open ChangeImpact.Path

structure IsInside (path : String) : Prop where
  ne_empty : path ≠ ""
  relative : path.toList.head? ≠ some '/'
  down : ∀ step ∈ Text.fields '/' path, step ≠ "" ∧ step ≠ "." ∧ step ≠ ".."

/-- A file that a path stands for once its marks are resolved. -/
def Meets (r : Resolver) (path target : String) : Prop :=
  normalText path = target ∧ IsInside target ∧ (r.verify = true → r.isFile target = true)

variable {r : Resolver} {specifier referencer target : String} {parts : List String}

theorem isInside_ofParts (h : ∀ p ∈ parts, IsPart p) (hne : parts ≠ []) (hup : ".." ∉ parts) :
    IsInside (ofParts parts) := by
  refine ⟨?_, head_ofParts h, ?_⟩
  · intro hempty
    have hread := congrArg Path.parts (ofString_ofParts h)
    rw [hempty] at hread
    exact hne hread.symm
  · rw [fields_ofParts hne h]
    intro p hp
    obtain ⟨hp', hdot, -⟩ := h p hp
    exact ⟨hp', hdot, ne_of_mem_of_not_mem hp hup⟩

theorem not_isInside_empty : ¬IsInside (ofParts []) := fun h =>
  (h.down "." (by decide)).2.1 rfl

theorem isInside_ofParts_iff (h : ∀ p ∈ parts, IsPart p) :
    IsInside (ofParts parts) ↔ parts ≠ [] ∧ ".." ∉ parts := by
  constructor
  · intro hinside
    have hne : parts ≠ [] := by
      intro hnil
      exact not_isInside_empty (hnil ▸ hinside)
    refine ⟨hne, fun hup => ?_⟩
    have hdown := hinside.down
    rw [fields_ofParts hne h] at hdown
    exact (hdown ".." hup).2.2 rfl
  · intro hboth
    exact isInside_ofParts h hboth.1 hboth.2

theorem staysInside_iff (h : ∀ p ∈ parts, IsPart p) (hn : IsNormal parts) :
    staysInside (ofParts parts) = true ↔ IsInside (ofParts parts) := by
  rw [isInside_ofParts_iff h]
  constructor
  · exact staysInside_ofParts hn
  · intro hboth
    exact staysInside_of_parts h hboth.1 hboth.2

theorem staysInside_normalText (h : referencer.toList.head? ≠ some '/') {path : String}
    (hpath : path ∈ possibleFiles (base specifier referencer)) :
    staysInside (normalText path) = true ↔ IsInside (normalText path) := by
  obtain ⟨parts, hparts, hn, hbase⟩ := base_eq_ofParts specifier h
  rw [hbase, possibleFiles_ofParts hparts] at hpath
  obtain ⟨c, hc, rfl⟩ := List.mem_map.mp hpath
  obtain ⟨hcparts, hcn⟩ := isNormal_of_mem_choices hparts hn hc
  rw [normalText_ofParts hcparts hcn]
  exact staysInside_iff hcparts hcn

theorem meets_iff (h : referencer.toList.head? ≠ some '/') {path : String}
    (hpath : path ∈ possibleFiles (base specifier referencer)) :
    r.Meets path target ↔ normalText path = target ∧
      (staysInside (normalText path) && (!r.verify || r.isFile (normalText path))) = true := by
  rw [Meets]
  apply and_congr_right
  intro htarget
  obtain rfl := htarget
  rw [Bool.and_eq_true, staysInside_normalText h hpath, Bool.or_eq_true, Bool.not_eq_true',
    ← Bool.not_eq_true, Decidable.imp_iff_not_or]

theorem find?_candidates (p : String → Bool) : (candidates specifier referencer).find? p =
    ((possibleFiles (base specifier referencer)).find? fun path =>
      staysInside (normalText path) && p (normalText path)).map normalText := by
  rw [candidates]
  generalize possibleFiles (base specifier referencer) = paths
  induction paths with
  | nil => rfl
  | cons path rest ih =>
    rw [List.map_cons, List.filter_cons, List.find?_cons]
    cases hstays : staysInside (normalText path) with
    | false => rw [if_neg Bool.false_ne_true, Bool.false_and, ih]
    | true =>
      rw [if_pos rfl, List.find?_cons, Bool.true_and, ih]
      cases p (normalText path) <;> rfl

/-- A specifier leads to the first file that it may mean, unless that is the file it stands in, and
nowhere else. -/
theorem resolve?_inside (r : Resolver) (specifier : String) {referencer : String}
    (h : referencer.toList.head? ≠ some '/') (target : String) :
    r.resolve? specifier referencer = some target ↔
      isRelative specifier = true ∧ target ≠ referencer ∧
      ∃ before path after,
        possibleFiles (base specifier referencer) = before ++ path :: after ∧
        r.Meets path target ∧ ∀ earlier ∈ before, ∀ other, ¬r.Meets earlier other := by
  rw [resolve?_eq_some, find?_candidates, Option.map_eq_some_iff,
    and_comm (b := target ≠ referencer)]
  apply and_congr_right
  intro _
  apply and_congr_right
  intro _
  have hmeets : ∀ path ∈ possibleFiles (base specifier referencer), ∀ target,
      r.Meets path target ↔ normalText path = target ∧ (staysInside (normalText path) &&
        (!r.verify || r.isFile (normalText path))) = true := fun path hpath target =>
    meets_iff h hpath
  generalize possibleFiles (base specifier referencer) = paths at hmeets ⊢
  constructor
  · intro hfound
    obtain ⟨path, hpath, htarget⟩ := hfound
    obtain ⟨hpasses, before, after, rfl, hbefore⟩ := List.find?_eq_some_iff_append.mp hpath
    refine ⟨before, path, after, rfl, (hmeets path (by simp) target).mpr ⟨htarget, hpasses⟩, ?_⟩
    intro earlier hearlier other hother
    have hskip := hbefore earlier hearlier
    rw [((hmeets earlier (by simp [hearlier]) other).mp hother).2] at hskip
    exact absurd hskip (by decide)
  · intro hfirst
    obtain ⟨before, path, after, rfl, hpath, hbefore⟩ := hfirst
    obtain ⟨htarget, hpasses⟩ := (hmeets path (by simp) target).mp hpath
    refine ⟨path, List.find?_eq_some_iff_append.mpr ⟨hpasses, before, after, rfl, ?_⟩, htarget⟩
    intro earlier hearlier
    rw [Bool.not_eq_true', Bool.eq_false_iff]
    intro hother
    exact hbefore earlier hearlier _ ((hmeets earlier (by simp [hearlier]) _).mpr ⟨rfl, hother⟩)

theorem resolve?_inside_util : "src/app.ts".toList.head? ≠ some '/' ∧
    "src/util.ts" ≠ "src/app.ts" ∧
    ∃ before path after,
      possibleFiles (base "../lib/../src//util?raw" "src/app.ts") = before ++ path :: after ∧
      Meets ⟨["src/app.ts", "src/util.ts", "src/util/index.ts"].contains, true⟩ path
        "src/util.ts" ∧
      ∀ earlier ∈ before, ∀ other,
        ¬Meets ⟨["src/app.ts", "src/util.ts", "src/util/index.ts"].contains, true⟩ earlier
          other := by
  have hrelative : "src/app.ts".toList.head? ≠ some '/' := by decide
  exact ⟨hrelative, ((resolve?_inside _ _ hrelative "src/util.ts").mp (by decide +kernel)).2⟩

end ChangeImpact.Imports.Resolver
