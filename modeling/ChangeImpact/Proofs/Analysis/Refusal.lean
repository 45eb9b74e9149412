import ChangeImpact.Analysis.Run
import ChangeImpact.Proofs.Data.Results
import ChangeImpact.Proofs.Path.Outside

/-!
# Changes that are refused

An analysis refuses a change set with a path whose first step leads outside, and looks no further
along a path. So it refuses no change set without reason, and it lets through one in which every
path that leads outside goes down before it goes up.
-/

namespace ChangeImpact.Repository

open ChangeImpact.Path (Climbs Escapes firstStep)

/-- The analysis is given up because of a path that does not lead down from the root. -/
def Refuses (r : Repository) (changes : ChangeSet) (diff : Option String) : Prop :=
  ∃ path, r.analyse changes diff = .error (.outsidePath path)

/-- The first step of the path leads out of the folder it starts from. -/
def StartsOutside (path : String) : Prop :=
  (Path.ofString path).isAbsolute = true ∨ firstStep path = "..".toList

theorem leadsOutside_iff {path : String} : leadsOutside path = true ↔ StartsOutside path := by
  rw [leadsOutside, Bool.or_eq_true, Bool.or_eq_true, beq_iff_eq, String.startsWith_string_iff,
    String.startsWith_string_iff, StartsOutside, Path.isAbsolute_ofString, firstStep]
  have hslash : "/".toList <+: path.toList ↔ path.toList.head? = some '/' := by
    cases path.toList <;> simp [eq_comm]
  rw [hslash, or_comm (a := path = ".."), or_assoc]
  refine or_congr_right ?_
  constructor
  · rintro (rfl | ⟨t, ht⟩)
    · rfl
    · rw [← ht]
      rfl
  · intro htake
    refine (Path.eq_or_eq_append_slash htake).imp String.toList_inj.mp ?_
    rintro ⟨t, ht⟩
    exact ⟨t, ht.symm⟩

theorem StartsOutside.escapes {path : String} (h : StartsOutside path) : Escapes path := by
  rw [Path.escapes_iff]
  exact h.imp_right fun hfirst => .of_head (Path.head?_parts_ofString hfirst)

variable {r : Repository} {changes : ChangeSet} {diff : Option String} {place : Path}

/-- The only step that gives this failure is the one that looks at the changed paths. -/
theorem analyse_eq_outsidePath_iff (reachable : folderAt r.disk r.root .unreachable = .ok place)
    {path : String} : r.analyse changes diff = .error (.outsidePath path) ↔
      changes.paths.find? leadsOutside = some path := by
  rw [analyse, reachable]
  cases changes.paths.find? leadsOutside with
  | some found => simp [bind_eq_error, throw, throwThe, MonadExceptOf.throw]
  | none =>
    simp only [bind_eq_error, mapError_eq_error, Except.ok.injEq, exists_eq_left']
    simp [pure, Except.pure]

theorem refuses_iff (reachable : folderAt r.disk r.root .unreachable = .ok place) :
    r.Refuses changes diff ↔ ∃ path ∈ changes.paths, StartsOutside path := by
  simp only [Refuses, analyse_eq_outsidePath_iff reachable, ← leadsOutside_iff]
  rw [← List.find?_isSome, Option.isSome_iff_exists]

/-- A change set is refused where some path starts with a step outside. These are the change sets
with a path that leads outside, except for those whose paths all go down first. -/
theorem refuses_iff_startsOutside (reachable : folderAt r.disk r.root .unreachable = .ok place) :
    (r.Refuses changes diff ↔ ∃ path ∈ changes.paths, StartsOutside path) ∧
      ((r.Refuses changes diff ↔ ∃ path ∈ changes.paths, Escapes path) ↔
        (∃ path ∈ changes.paths, StartsOutside path) ∨
          ∀ path ∈ changes.paths, ¬Climbs (Path.ofString path).parts) := by
  have hrefuses : r.Refuses changes diff ↔ ∃ path ∈ changes.paths, StartsOutside path :=
    refuses_iff reachable
  refine ⟨hrefuses, ?_⟩
  rw [hrefuses]
  constructor
  · intro hsame
    by_cases hstarts : ∃ path ∈ changes.paths, StartsOutside path
    · exact .inl hstarts
    · refine .inr fun path hpath hclimbs => hstarts (hsame.mpr ⟨path, hpath, ?_⟩)
      exact Path.escapes_iff.mpr (.inr hclimbs)
  · rintro (hstarts | hdown)
    · obtain ⟨path, hpath, hstart⟩ := hstarts
      exact iff_of_true ⟨path, hpath, hstart⟩ ⟨path, hpath, hstart.escapes⟩
    · have hescapes : ∀ path ∈ changes.paths, Escapes path → StartsOutside path :=
        fun path hpath hescape =>
          .inl ((Path.escapes_iff.mp hescape).resolve_right (hdown path hpath))
      constructor
      · rintro ⟨path, hpath, hstart⟩
        exact ⟨path, hpath, hstart.escapes⟩
      · rintro ⟨path, hpath, hescape⟩
        exact ⟨path, hpath, hescapes path hpath hescape⟩

def bare : Repository := ⟨.usual, .empty, ⟨.root, []⟩, {}⟩

theorem folderAt_bare : folderAt bare.disk bare.root .unreachable = .ok bare.root := by
  decide +kernel

theorem refuses_upward : folderAt bare.disk bare.root .unreachable = .ok bare.root ∧
    (bare.Refuses (.ofPaths ["a/../../x", "../y"]) none ↔
      ∃ path ∈ (ChangeSet.ofPaths ["a/../../x", "../y"]).paths, Escapes path) := by
  refine ⟨folderAt_bare, (refuses_iff_startsOutside folderAt_bare).2.mpr (.inl ⟨"../y", ?_, ?_⟩)⟩
  · decide
  · exact .inr (by decide)

theorem not_refuses_roundabout : folderAt bare.disk bare.root .unreachable = .ok bare.root ∧
    ¬(bare.Refuses (.ofPaths ["a/../../x"]) none ↔
      ∃ path ∈ (ChangeSet.ofPaths ["a/../../x"]).paths, Escapes path) := by
  refine ⟨folderAt_bare, fun hsame => ?_⟩
  have hescapes : Escapes "a/../../x" :=
    Path.escapes_iff.mpr (.inr ⟨["a", "..", ".."], by decide, by decide⟩)
  obtain ⟨path, hpath, hstart⟩ :=
    (refuses_iff folderAt_bare).mp (hsame.mpr ⟨"a/../../x", by decide, hescapes⟩)
  obtain rfl : path = "a/../../x" := by simpa [ChangeSet.paths, ChangeSet.ofPaths] using hpath
  rcases hstart with habsolute | hfirst
  · exact absurd habsolute (by decide)
  · exact absurd hfirst (by decide)

end ChangeImpact.Repository
