import ChangeImpact.Proofs.Risk.DroppedAwaits
import ChangeImpact.Proofs.Text.Strip

/-!
# Changed margins

A hunk that only changes the margins of lines returns the same expressions before and after, so
that no change of a returned shape is seen in it. Its calls are the same too, but the scan holds an
awaited call of any removed line against a call of any added line. It warns of a dropped await
wherever the removed lines have both an awaited call of a name and a line where the first call of it
is not awaited: `raises_reindented`.
-/

namespace ChangeImpact

/-- The added lines are the removed ones with other margins. -/
def Hunk.Reindented (h : Hunk) : Prop :=
  h.added.map (fun line => Text.strip line.toList) =
    h.removed.map fun line => Text.strip line.toList

namespace Risk.Warning

open Text Imports

variable {path : String} {h : Hunk} {name line before rest front back gap s u v : List Char}

section Returns

theorem any_isWord_trimRight (s : List Char) :
    (trimRight isBlank s).head?.any isWord = s.head?.any isWord := by
  obtain ⟨back, hback, hs⟩ := exists_trimRight isBlank s
  conv_rhs => rw [← hs]
  cases trimRight isBlank s with
  | cons c r => rfl
  | nil =>
    cases back with
    | nil => rfl
    | cons c r => exact (isWord_of_isBlank (hback c List.mem_cons_self)).symm

theorem returned?_strip (line : String) :
    returned? (String.ofList (strip line.toList)) = returned? line := by
  have hskip : skipBlanks (String.ofList (strip line.toList)).toList =
      trimRight isBlank (skipBlanks line.toList) := by
    rw [String.toList_ofList]
    exact dropWhile_trim line.toList
  have hreturn : "return".toList = "retur".toList ++ ['n'] := by decide
  rw [returned?, returned?, hskip, hreturn, after?_trimRight (by decide)]
  cases after? ("retur".toList ++ ['n']) (skipBlanks line.toList) with
  | none => rfl
  | some r =>
    have htrim : trimRight isBlank (skipBlanks (trimRight isBlank r)) =
        trimRight isBlank (skipBlanks r) := trim_trimRight r
    simp only [Option.map_some, Option.bind_eq_bind, Option.bind_some, any_isWord_trimRight, htrim]

theorem filterMap_returned? (lines : List String) : lines.filterMap returned? =
    (lines.map fun line => strip line.toList).filterMap fun s => returned? (String.ofList s) := by
  rw [List.filterMap_map]
  exact congrArg (List.filterMap · lines) (funext fun line => (returned?_strip line).symm)

theorem shapes_added (h : Hunk) :
    (h.numberedAdditions.filterMap fun (line, text) =>
      (returned? text).map fun e => (line, shapeOf e)).map (·.2) =
    (h.added.filterMap returned?).map shapeOf := by
  rw [← Hunk.map_text_numberedAdditions, List.map_filterMap, List.filterMap_map, List.map_filterMap]
  refine congrArg (List.filterMap · h.numberedAdditions) (funext fun a => ?_)
  simp [Function.comp_def]

theorem shapes_removed (h : Hunk) : (h.removed.filterMap fun l => (returned? l).map shapeOf) =
    (h.removed.filterMap returned?).map shapeOf := by
  rw [List.map_filterMap]

theorem shapeChanges_eq_nil (hsame : h.added.filterMap returned? = h.removed.filterMap returned?) :
    shapeChanges path h = [] := by
  unfold shapeChanges
  dsimp only
  rw [shapes_added, shapes_removed, hsame]
  split
  next => rfl
  next found hfound =>
    have hnew := List.find?_some hfound
    rw [if_pos]
    rw [Bool.or_eq_true, List.any_eq_true]
    exact .inr ⟨_, List.contains_iff_mem.mp hnew, hnew⟩

end Returns

section Calls

theorem forall_getLast?_gap {p : Char → Prop} (hp : ∀ c, isBlank c = true → p c)
    (hfront : IsGap front) (u : List Char) :
    (∀ c ∈ (front ++ u).getLast?, p c) ↔ ∀ c ∈ u.getLast?, p c := by
  cases u with
  | cons c r => rw [List.getLast?_append_cons]
  | nil =>
    rw [List.append_nil]
    exact iff_of_true (fun c hc => hp c (hfront c (List.mem_of_getLast? hc))) nofun

theorem endsAwaiting_gap (hfront : IsGap front) :
    EndsAwaiting (front ++ s) ↔ EndsAwaiting s := by
  have hstart : ∀ u, atWordStart (front ++ u).getLast? = true ↔ atWordStart u.getLast? = true := by
    intro u
    rw [atWordStart_iff, atWordStart_iff]
    exact forall_getLast?_gap (fun _ => isWord_of_isBlank) hfront u
  constructor
  · rintro ⟨before, gap, hbefore, hne, hgap, hs⟩
    rcases List.append_eq_append_iff.mp hs with ⟨w, rfl, rfl⟩ | ⟨w, rfl, hw⟩
    · exact ⟨w, gap, (hstart w).mp hbefore, hne, hgap, rfl⟩
    · cases w with
      | nil => exact ⟨[], gap, rfl, hne, hgap, hw.symm⟩
      | cons c w =>
        -- The word would begin in the margin.
        obtain rfl : c = 'a' := (List.cons.inj hw).1.symm
        exact absurd (hfront 'a' (List.mem_append_right _ List.mem_cons_self)) (by decide)
  · rintro ⟨before, gap, hbefore, hne, hgap, rfl⟩
    exact ⟨front ++ before, gap, (hstart before).mpr hbefore, hne, hgap,
      (List.append_assoc _ _ _).symm⟩

theorem beginsCall_gap (hback : IsGap back) : BeginsCall name (s ++ back) ↔ BeginsCall name s := by
  constructor
  · rintro ⟨gap, behind, hgap, hs⟩
    rw [← List.append_assoc] at hs
    rcases List.append_eq_append_iff.mp hs with ⟨w, -, hw⟩ | ⟨w, rfl, hw⟩
    · exact absurd (hback '(' (by simp [hw])) (by decide)
    · cases w with
      | nil =>
        obtain rfl : '(' :: behind = back := hw
        exact absurd (hback '(' List.mem_cons_self) (by decide)
      | cons c w =>
        obtain rfl := (List.cons.inj hw).1
        exact ⟨gap, w, hgap, List.append_assoc _ _ _⟩
  · rintro ⟨gap, behind, hgap, rfl⟩
    exact ⟨gap, behind ++ back, hgap, by simp⟩

theorem callsAt_gaps (hfront : IsGap front) (hback : IsGap back) :
    CallsAt name (front ++ u) (v ++ back) ↔ CallsAt name u v := by
  have hapart : (∀ c ∈ (front ++ u).getLast?, isCallee c = false) ↔
      ∀ c ∈ u.getLast?, isCallee c = false :=
    forall_getLast?_gap (fun _ => isCallee_of_isBlank) hfront u
  exact ⟨fun h => ⟨hapart.mp h.apart, (beginsCall_gap hback).mp h.begins⟩,
    fun h => ⟨hapart.mpr h.apart, (beginsCall_gap hback).mpr h.begins⟩⟩

theorem CallsAt.within (hname : IsName name) (hfront : IsGap front) (hback : IsGap back)
    (h : CallsAt name before rest) (hline : before ++ rest = front ++ (s ++ back)) :
    ∃ u v, before = front ++ u ∧ rest = v ++ back ∧ u ++ v = s := by
  obtain ⟨gap, behind, -, hrest⟩ := h.begins
  obtain ⟨c, r, hcr, -, hblank⟩ := hname.head (gap ++ '(' :: behind)
  rw [← hrest] at hcr
  have hfirst : ∀ w, ¬ IsGap (w ++ rest) := by
    intro w hw
    rw [hw c (by simp [hcr])] at hblank
    cases hblank
  obtain ⟨u, rfl, hu⟩ : ∃ u, before = front ++ u ∧ u ++ rest = s ++ back := by
    rcases List.append_eq_append_iff.mp hline with ⟨w, hw, hrest⟩ | ⟨u, hu, hs⟩
    · cases w with
      | nil => exact ⟨[], by simpa using hw.symm, hrest⟩
      | cons d w =>
        rw [hcr] at hrest
        obtain rfl := (List.cons.inj hrest).1
        rw [hfront c (by simp [hw])] at hblank
        cases hblank
    · exact ⟨u, hu, hs.symm⟩
  rcases List.append_eq_append_iff.mp hu with ⟨v, hs, hv⟩ | ⟨w, -, hw⟩
  · exact ⟨u, v, rfl, hv, hs.symm⟩
  · exact absurd (hw ▸ hback) (hfirst w)

theorem firstUnawaited_gaps (hname : IsName name) (hfront : IsGap front) (hback : IsGap back) :
    FirstUnawaited name (front ++ (s ++ back)) ↔ FirstUnawaited name s := by
  constructor
  · rintro ⟨before, rest, hline, hcalls, hplain, hleast⟩
    obtain ⟨u, v, rfl, rfl, rfl⟩ := hcalls.within hname hfront hback hline
    rw [callsAt_gaps hfront hback] at hcalls
    rw [endsAwaiting_gap hfront] at hplain
    refine ⟨u, v, rfl, hcalls, hplain, fun u' v' hs hother => ?_⟩
    have hlength := hleast (front ++ u') (v' ++ back) (by simp [← hs])
      ((callsAt_gaps hfront hback).mpr hother)
    rw [List.length_append, List.length_append] at hlength
    exact Nat.le_of_add_le_add_left hlength
  · rintro ⟨u, v, rfl, hcalls, hplain, hleast⟩
    refine ⟨front ++ u, v ++ back, by simp, (callsAt_gaps hfront hback).mpr hcalls,
      fun hends => hplain ((endsAwaiting_gap hfront).mp hends), fun before rest hline hother => ?_⟩
    obtain ⟨u', v', rfl, rfl, hs⟩ := hother.within hname hfront hback hline
    have hlength := hleast u' v' hs ((callsAt_gaps hfront hback).mp hother)
    rw [List.length_append, List.length_append]
    exact Nat.add_le_add_left hlength _

theorem firstUnawaited_strip (hname : IsName name) (line : List Char) :
    FirstUnawaited name (strip line) ↔ FirstUnawaited name line := by
  obtain ⟨front, back, hfront, hback, hline⟩ := exists_trim isBlank line
  conv_rhs => rw [← hline]
  exact (firstUnawaited_gaps hname hfront hback).symm

end Calls

def Raises (path : String) (h : Hunk) (kind : WarningKind) : Prop :=
  ∃ w ∈ ofHunk path h, w.kind = kind

/-- Among the removed lines a call of `name` is awaited, and in one of them the first is not. -/
def MixesAwaits (h : Hunk) (name : List Char) : Prop :=
  (∃ l ∈ h.removed, AwaitsCall name l.toList) ∧ ∃ l ∈ h.removed, FirstUnawaited name l.toList

theorem shapeChanges_ne_nil (hraises : Raises path h .returnShapeChanged) :
    shapeChanges path h ≠ [] := by
  obtain ⟨w, hw, hkind⟩ := hraises
  rw [ofHunk, List.mem_append, List.mem_append] at hw
  rcases hw with (hw | hw) | hw
  · rw [kind_arraysFromProperties hw] at hkind
    cases hkind
  · exact List.ne_nil_of_mem hw
  · obtain ⟨line, text, name, -, -, -, rfl⟩ := mem_droppedAwaits.mp hw
    cases hkind

theorem raises_awaitRemoved : Raises path h .awaitRemoved ↔ ∃ name,
    (IsName name ∧ ∃ l ∈ h.removed, AwaitsCall name l.toList) ∧
      ∃ l ∈ h.added, FirstUnawaited name l.toList := by
  simp only [← Hunk.map_text_numberedAdditions, List.mem_map, Prod.exists]
  constructor
  · rintro ⟨w, hw, hkind⟩
    rw [mem_ofHunk_of_awaitRemoved hkind] at hw
    obtain ⟨line, text, name, hmem, hname, hplain, rfl⟩ := mem_droppedAwaits.mp hw
    exact ⟨name, mem_awaitedNames.mp hname, text, ⟨line, text, hmem, rfl⟩, hplain⟩
  · rintro ⟨name, hname, text, ⟨line, _, hmem, rfl⟩, hplain⟩
    exact ⟨dropped path line name, (dropped_mem_ofHunk hmem).mpr ⟨hname, hplain⟩, rfl⟩

theorem exists_firstUnawaited (hname : IsName name) (lines : List String) :
    (∃ l ∈ lines, FirstUnawaited name l.toList) ↔
      ∃ s ∈ lines.map fun line => strip line.toList, FirstUnawaited name s := by
  simp only [List.mem_map, exists_exists_and_eq_and, firstUnawaited_strip hname]

/-- Other margins never change a returned shape. They seem to drop an await exactly where the lines
have an awaited call of a name and a line whose first call of it is not awaited. -/
theorem raises_reindented (h : Hunk) (hsame : h.Reindented) (path : String) :
    ¬ Raises path h .returnShapeChanged ∧
      (Raises path h .awaitRemoved ↔ ∃ name, IsName name ∧ MixesAwaits h name) := by
  have hplain : ∀ name, IsName name → ((∃ l ∈ h.added, FirstUnawaited name l.toList) ↔
      ∃ l ∈ h.removed, FirstUnawaited name l.toList) := by
    intro name hname
    rw [exists_firstUnawaited hname, exists_firstUnawaited hname, hsame]
  constructor
  · intro hraises
    refine shapeChanges_ne_nil hraises (shapeChanges_eq_nil ?_)
    rw [filterMap_returned?, filterMap_returned?, hsame]
  · rw [raises_awaitRemoved]
    constructor
    · rintro ⟨name, ⟨hname, hawaited⟩, hadded⟩
      exact ⟨name, hname, hawaited, (hplain name hname).mp hadded⟩
    · rintro ⟨name, hname, hawaited, hremoved⟩
      exact ⟨name, ⟨hname, hawaited⟩, (hplain name hname).mpr hremoved⟩

def indenting (lines : List String) : Hunk := replacing lines (lines.map fun line => "  " ++ line)

theorem reindented_indenting (lines : List String) : (indenting lines).Reindented := by
  rw [Hunk.Reindented, indenting, removed_replacing, added_replacing, List.map_map]
  refine List.map_congr_left fun line _ => ?_
  have hmargin : ("  " ++ line).toList = ' ' :: ' ' :: line.toList := by
    rw [String.toList_append]
    rfl
  rw [Function.comp_apply, hmargin]
  exact (trim_cons (by decide) _).trans (trim_cons (by decide) _)

def loading : Hunk := indenting ["if (!id)", "return null;", "return [await load(id)];"]

theorem raises_reindented_loading : loading.Reindented ∧
    ¬ Raises "a.js" loading .returnShapeChanged ∧ ¬ Raises "a.js" loading .awaitRemoved := by
  have hsame : loading.Reindented := reindented_indenting _
  obtain ⟨hshape, hawait⟩ := raises_reindented loading hsame "a.js"
  refine ⟨hsame, hshape, fun hraises => ?_⟩
  obtain ⟨name, hname, hawaited, l, hl, hplain⟩ := hawait.mp hraises
  rw [loading, indenting, removed_replacing] at hl
  have hnames : awaitedNames loading = ["load".toList] := by decide +kernel
  have hload : name ∈ awaitedNames loading := mem_awaitedNames.mpr ⟨hname, hawaited⟩
  rw [hnames, List.mem_singleton] at hload
  have hnone : ∀ l ∈ ["if (!id)", "return null;", "return [await load(id)];"],
      callsPlainly "load".toList l.toList = false := by
    decide +kernel
  have hcalls := callsPlainly_iff.mpr hplain
  rw [hload, hnone l hl] at hcalls
  cases hcalls

def saving : Hunk := indenting ["await save(a);", "return save(b);"]

theorem reindented_raises_saving : saving.Reindented ∧ Raises "a.js" saving .awaitRemoved := by
  have hname : IsName "save".toList := ⟨'s', "ave".toList, rfl, by decide, List.all_eq_true.mp (by decide)⟩
  have hawaits : AwaitsCall "save".toList "await save(a);".toList :=
    awaitsCall_of_mem (by decide +kernel)
  have hplain : FirstUnawaited "save".toList "  return save(b);".toList :=
    callsPlainly_iff.mp (by decide +kernel)
  refine ⟨reindented_indenting _,
    raises_awaitRemoved.mpr ⟨_, ⟨hname, _, ?_, hawaits⟩, _, ?_, hplain⟩⟩
  · rw [saving, indenting, removed_replacing]
    exact List.mem_cons_self
  · rw [saving, indenting, added_replacing]
    exact List.mem_cons_of_mem _ List.mem_cons_self

end Risk.Warning

end ChangeImpact
