import ChangeImpact.Proofs.Change.Added
import ChangeImpact.Proofs.Data.Results
import ChangeImpact.Proofs.Risk.Reindented

/-!
# Where warnings point

A warning points at an added line of a hunk of its file, by the number that the line has in the new
file. The warnings of a scan are those of the hunks, one hunk after the other; a hunk is warned of
at most once for its returned shapes, and then at a line that returns one of the new ones:
`scan_points`.
-/

namespace ChangeImpact

namespace Risk.Warning

variable {path shape line : String} {h : Hunk} {w : Warning}

def Returns (line shape : String) : Prop := ∃ e, returned? line = some e ∧ shapeOf e = shape

def oldShapes (h : Hunk) : List String :=
  tellingShapes (h.removed.filterMap fun l => (returned? l).map shapeOf)

def newShapes (h : Hunk) : List String :=
  tellingShapes (h.added.filterMap fun l => (returned? l).map shapeOf)

def changeMessage (old new : List String) : String :=
  "Return value changed from " ++ "/".intercalate old ++ " to " ++ "/".intercalate new ++
    "; callers may rely on the old shape."

structure PointsInto (path : String) (h : Hunk) (ws : List Warning) : Prop where
  added : ∀ w ∈ ws, w.path = path ∧
    ∃ (i : Nat) (text : String), h.lines[i]? = some ("+" ++ text) ∧ w.line = h.newNumber i
  once : (ws.filter (·.kind = .returnShapeChanged)).length ≤ 1
  returns : ∀ w ∈ ws, w.kind = .returnShapeChanged →
    w.message = changeMessage (oldShapes h) (newShapes h) ∧
      ∃ (i : Nat) (text shape : String), h.lines[i]? = some ("+" ++ text) ∧
        w.line = h.newNumber i ∧ Returns text shape ∧ shape ∈ newShapes h

theorem newShapes_eq (h : Hunk) : newShapes h =
    tellingShapes ((h.numberedAdditions.filterMap fun (line, text) =>
      (returned? text).map fun e => (line, shapeOf e)).map (·.2)) := by
  rw [shapes_added, newShapes, List.map_filterMap]

theorem shapeChanges_cases (path : String) (h : Hunk) : shapeChanges path h = [] ∨
    ∃ line text shape, (line, text) ∈ h.numberedAdditions ∧ Returns text shape ∧
      shape ∈ newShapes h ∧ shapeChanges path h =
        [⟨.returnShapeChanged, path, line, changeMessage (oldShapes h) (newShapes h)⟩] := by
  unfold shapeChanges
  dsimp only
  rw [← newShapes_eq]
  split
  next => exact .inl rfl
  next number shape hfound =>
    split
    next => exact .inl rfl
    next =>
      have hnew : shape ∈ newShapes h := by simpa using List.find?_some hfound
      obtain ⟨⟨_, text⟩, hmem, hreturn⟩ := List.mem_filterMap.mp (List.mem_of_find?_eq_some hfound)
      obtain ⟨e, he, heq⟩ := Option.map_eq_some_iff.mp hreturn
      obtain ⟨rfl, rfl⟩ := Prod.mk.inj heq
      exact .inr ⟨_, text, shapeOf e, hmem, ⟨e, he, rfl⟩, hnew, rfl⟩

theorem mem_ofHunk_added (hw : w ∈ ofHunk path h) :
    w.path = path ∧ ∃ text, (w.line, text) ∈ h.numberedAdditions := by
  rw [ofHunk, List.mem_append, List.mem_append] at hw
  rcases hw with (hw | hw) | hw
  · obtain ⟨⟨line, text⟩, hmem, hw⟩ := List.mem_flatMap.mp hw
    obtain ⟨find, -, hw⟩ := List.mem_filterMap.mp hw
    dsimp only at hw
    split at hw
    next =>
      obtain rfl := Option.some.inj hw
      exact ⟨rfl, text, hmem⟩
    next => cases hw
  · rcases shapeChanges_cases path h with hnone | ⟨line, text, shape, hmem, -, -, hone⟩
    · rw [hnone] at hw
      cases hw
    · rw [hone] at hw
      obtain rfl := List.mem_singleton.mp hw
      exact ⟨rfl, text, hmem⟩
  · obtain ⟨line, text, name, hmem, -, -, rfl⟩ := mem_droppedAwaits.mp hw
    exact ⟨rfl, text, hmem⟩

theorem pointsInto_ofHunk (path : String) (h : Hunk) : PointsInto path h (ofHunk path h) where
  added w hw := by
    obtain ⟨hpath, text, hmem⟩ := mem_ofHunk_added hw
    obtain ⟨i, hi, hline⟩ := Hunk.mem_numberedAdditions.mp hmem
    exact ⟨hpath, i, text, hi, hline⟩
  once := by
    rw [filter_ofHunk]
    rcases shapeChanges_cases path h with hnone | ⟨_, _, _, -, -, -, hone⟩
    · simp [hnone]
    · simp [hone]
  returns w hw hkind := by
    have hshape : w ∈ (ofHunk path h).filter (·.kind = .returnShapeChanged) :=
      List.mem_filter.mpr ⟨hw, decide_eq_true hkind⟩
    rw [filter_ofHunk] at hshape
    rcases shapeChanges_cases path h with hnone | ⟨line, text, shape, hmem, hreturns, hnew, hone⟩
    · rw [hnone] at hshape
      cases hshape
    · rw [hone] at hshape
      obtain rfl := List.mem_singleton.mp hshape
      obtain ⟨i, hi, hline⟩ := Hunk.mem_numberedAdditions.mp hmem
      exact ⟨rfl, i, text, shape, hi, hline, hreturns, hnew⟩

def sites (ds : List FileDiff) : List (String × Hunk) :=
  ds.flatMap fun d => d.hunks.map fun h => (d.path, h)

theorem flatten_ofHunk (ds : List FileDiff) :
    ((sites ds).map fun site => ofHunk site.1 site.2).flatten = ds.flatMap ofFile := by
  rw [← List.flatMap_def, sites, List.flatMap_assoc]
  refine List.flatMap_congr fun d _ => ?_
  rw [List.flatMap_map]
  rfl

/-- The warnings of a scan point at added lines. They stand in the order of the files and hunks;
those of one hunk are `parts`. -/
theorem scan_points (text : String) (ws : List Warning) (hscan : scan text = .ok ws) :
    ∃ ds parts, Diff.read text = .ok ds ∧
      List.Forall₂ (fun site => PointsInto site.1 site.2) (sites ds) parts ∧
      ws = parts.flatten ∧
      ∀ w ∈ ws, ∃ d ∈ ds, ∃ h ∈ d.hunks, w.path = d.path ∧
        ∃ (i : Nat) (line : String), h.lines[i]? = some ("+" ++ line) ∧ w.line = h.newNumber i := by
  obtain ⟨ds, hread, rfl⟩ := map_eq_ok.mp hscan
  refine ⟨ds, _, hread, ?_, (flatten_ofHunk ds).symm, fun w hw => ?_⟩
  · rw [List.forall₂_map_right_iff, List.forall₂_same]
    exact fun site _ => pointsInto_ofHunk site.1 site.2
  · obtain ⟨d, hd, hw⟩ := List.mem_flatMap.mp hw
    obtain ⟨h, hh, hw⟩ := List.mem_flatMap.mp hw
    obtain ⟨hpath, hadded⟩ := (pointsInto_ofHunk d.path h).added w hw
    exact ⟨d, hd, h, hh, hpath, hadded⟩

def mixedDiff : String :=
  "diff --git a/a.js b/a.js\n@@ -1,2 +1,2 @@\n-return null;\n-await f();\n" ++
    "+return [user.items];\n+f();\n"

theorem scan_points_mixed : ∃ ws, scan mixedDiff = .ok ws ∧
    ws.map (fun w => (w.kind, w.line)) =
      [(.arrayFromProperty, 1), (.returnShapeChanged, 1), (.awaitRemoved, 2)] ∧
    ∃ ds parts, Diff.read mixedDiff = .ok ds ∧ ws = parts.flatten ∧
      List.Forall₂ (fun site => PointsInto site.1 site.2) (sites ds) parts := by
  have hkinds : (scan mixedDiff).map (·.map fun w => (w.kind, w.line)) =
      .ok [(.arrayFromProperty, 1), (.returnShapeChanged, 1), (.awaitRemoved, 2)] := by
    decide +kernel
  obtain ⟨ws, hscan, hws⟩ := map_eq_ok.mp hkinds
  obtain ⟨ds, parts, hread, hparts, hflat, -⟩ := scan_points mixedDiff ws hscan
  exact ⟨ws, hscan, hws, ds, parts, hread, hflat, hparts⟩

end Risk.Warning

end ChangeImpact
