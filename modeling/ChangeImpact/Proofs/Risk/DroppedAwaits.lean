import ChangeImpact.Proofs.Risk.Calls

/-!
# Dropped awaits

A hunk is warned of if an added line calls a name plainly that a removed line awaits. Of the calls
in the added line the scan looks only at the first, and it knows only names that begin with a letter
of ASCII, an underscore or a dollar sign. So it warns just of the lines that drop an await unless
the name begins otherwise or an awaited call stands before the plain one: `reportsExactly_iff`.
-/

namespace ChangeImpact

namespace Hunk

variable {h : Hunk}

theorem map_text_numberFrom (n : Int) (ls : List String) :
    (numberFrom n ls).map (·.2) = ls.filterMap (marked? '+') := by
  fun_induction numberFrom n ls with
  | case1 => rfl
  | case2 n line r text hline ih => simp [marked?, hline, ih]
  | case3 n line r text hline ih => simp [marked?, hline, ih]
  | case4 n line r text hline ih => simp [marked?, hline, ih]
  | case5 n line r hadd _ _ ih =>
    have hnone : marked? '+' line = none := by
      unfold marked?
      split
      next c s hs =>
        rw [if_neg]
        intro hc
        obtain rfl := eq_of_beq hc
        exact hadd s hs
      next => rfl
    rw [ih, List.filterMap_cons_none hnone]

theorem map_text_numberedAdditions (h : Hunk) : h.numberedAdditions.map (·.2) = h.added :=
  map_text_numberFrom _ _

theorem pairwise_numberFrom (n : Int) (ls : List String) :
    (∀ a ∈ numberFrom n ls, n ≤ a.1) ∧ (numberFrom n ls).Pairwise fun a b => a.1 < b.1 := by
  fun_induction numberFrom n ls with
  | case1 => exact ⟨nofun, .nil⟩
  | case2 n line r text _ ih =>
    obtain ⟨hle, hpairwise⟩ := ih
    exact ⟨List.forall_mem_cons.mpr ⟨Int.le_refl n, fun a ha => Int.le_of_lt (hle a ha)⟩,
      .cons hle hpairwise⟩
  | case3 n line r text _ ih => exact ih
  | case4 n line r text _ ih => exact ih
  | case5 n line r _ _ _ ih => exact ⟨fun a ha => Int.le_of_lt (ih.1 a ha), ih.2⟩

theorem text_unique {line : Int} {text text' : String} (hmem : (line, text) ∈ h.numberedAdditions)
    (hmem' : (line, text') ∈ h.numberedAdditions) : text = text' := by
  have hnodup : (h.numberedAdditions.map (·.1)).Nodup :=
    List.pairwise_map.mpr ((pairwise_numberFrom _ _).2.imp fun hlt => Int.ne_of_lt hlt)
  exact congrArg Prod.snd (List.inj_on_of_nodup_map hnodup hmem hmem' rfl)

end Hunk

namespace Risk.Warning

open Text Imports

variable {path : String} {h : Hunk} {w : Warning} {name : List Char} {line : Int} {text : String}

section Members

theorem kind_arraysFromProperties (hw : w ∈ arraysFromProperties path h) :
    w.kind = .arrayFromProperty := by
  obtain ⟨⟨line, text⟩, -, hw⟩ := List.mem_flatMap.mp hw
  obtain ⟨⟨place, spread, property⟩, -, hw⟩ := List.mem_filterMap.mp hw
  dsimp only at hw
  split at hw
  next => rw [← Option.some.inj hw]
  next => cases hw

theorem kind_shapeChanges (hw : w ∈ shapeChanges path h) : w.kind = .returnShapeChanged := by
  unfold shapeChanges at hw
  dsimp only at hw
  split at hw
  next => cases hw
  next =>
    split at hw
    next => cases hw
    next => rw [List.mem_singleton.mp hw]

def dropped (path : String) (line : Int) (name : List Char) : Warning :=
  ⟨.awaitRemoved, path, line, awaitMessage name⟩

theorem mem_droppedAwaits : w ∈ droppedAwaits path h ↔
    ∃ line text name, (line, text) ∈ h.numberedAdditions ∧ name ∈ awaitedNames h ∧
      FirstUnawaited name text.toList ∧ w = dropped path line name := by
  simp only [droppedAwaits, List.mem_flatMap, List.mem_map, List.mem_filter, Prod.exists,
    ← callsPlainly_iff]
  constructor
  · rintro ⟨line, text, hmem, name, ⟨hname, hplain⟩, rfl⟩
    exact ⟨line, text, name, hmem, hname, hplain, rfl⟩
  · rintro ⟨line, text, name, hmem, hname, hplain, rfl⟩
    exact ⟨line, text, hmem, name, ⟨hname, hplain⟩, rfl⟩

theorem kind_droppedAwaits (hw : w ∈ droppedAwaits path h) : w.kind = .awaitRemoved := by
  obtain ⟨line, text, name, -, -, -, rfl⟩ := mem_droppedAwaits.mp hw
  rfl

theorem filter_of_kind {ws : List Warning} {j : WarningKind} (hws : ∀ w ∈ ws, w.kind = j)
    (k : WarningKind) : ws.filter (·.kind = k) = if j = k then ws else [] := by
  split
  next h => exact List.filter_eq_self.mpr fun w hw => by simp [hws w hw, h]
  next h => exact List.filter_eq_nil_iff.mpr fun w hw => by simp [hws w hw, h]

theorem filter_ofHunk (path : String) (h : Hunk) (k : WarningKind) :
    (ofHunk path h).filter (·.kind = k) =
      match k with
      | .arrayFromProperty => arraysFromProperties path h
      | .returnShapeChanged => shapeChanges path h
      | .awaitRemoved => droppedAwaits path h
      | .other _ => [] := by
  rw [ofHunk, List.filter_append, List.filter_append,
    filter_of_kind (fun _ => kind_arraysFromProperties),
    filter_of_kind (fun _ => kind_shapeChanges), filter_of_kind (fun _ => kind_droppedAwaits)]
  cases k <;> simp

theorem mem_ofHunk_of_awaitRemoved (hkind : w.kind = .awaitRemoved) :
    w ∈ ofHunk path h ↔ w ∈ droppedAwaits path h := by
  have hfilter := filter_ofHunk path h .awaitRemoved
  dsimp only at hfilter
  rw [← hfilter, List.mem_filter, hkind]
  simp

end Members

theorem awaitMessage_inj {name name' : List Char} (h : awaitMessage name = awaitMessage name') :
    name = name' := by
  have hlists := congrArg String.toList h
  simpa only [awaitMessage, String.toList_append, String.toList_ofList, List.append_cancel_left_eq,
    List.append_cancel_right_eq] using hlists

theorem mem_findAll_awaitedCall {s : List Char} : name ∈ (findAll awaitedCall s).map (·.2) ↔
    IsName name ∧ AwaitsCall name s := by
  simp only [apart_awaitedCall.mem_findAll, awaitedCall_eq_some]
  constructor
  · rintro ⟨u, v, rfl, -, size, hstart, hname, toName, toBracket, behind, hne, htoName,
      htoBracket, rfl, -⟩
    refine ⟨hname, u ++ ("await".toList ++ toName), _, ?_, ⟨u, toName, hstart, hne, htoName, rfl⟩,
      toBracket, behind, htoBracket, rfl⟩
    simp only [List.append_assoc]
  · rintro ⟨hname, before, rest, rfl, ⟨u, toName, hstart, hne, htoName, rfl⟩, toBracket, behind,
      htoBracket, rfl⟩
    refine ⟨u, _, (List.append_assoc _ _ _).symm, ?_, _, hstart, hname, toName, toBracket, behind,
      hne, htoName, htoBracket, List.append_assoc _ _ _, rfl⟩
    simp

theorem mem_awaitedNames : name ∈ awaitedNames h ↔
    IsName name ∧ ∃ l ∈ h.removed, AwaitsCall name l.toList := by
  simp only [awaitedNames, List.mem_mergeSort, List.mem_eraseDups, List.mem_flatMap,
    mem_findAll_awaitedCall]
  constructor
  · rintro ⟨l, hl, hname, hcall⟩
    exact ⟨hname, l, hl, hcall⟩
  · rintro ⟨hname, l, hl, hcall⟩
    exact ⟨l, hl, hname, hcall⟩

theorem dropped_mem_ofHunk (hmem : (line, text) ∈ h.numberedAdditions) :
    dropped path line name ∈ ofHunk path h ↔
      (IsName name ∧ ∃ l ∈ h.removed, AwaitsCall name l.toList) ∧
        FirstUnawaited name text.toList := by
  rw [mem_ofHunk_of_awaitRemoved rfl, mem_droppedAwaits]
  simp only [mem_awaitedNames]
  constructor
  · rintro ⟨line', text', name', hmem', hname, hplain, heq⟩
    obtain ⟨-, -, hline, hmessage⟩ := Warning.mk.inj heq
    obtain rfl := awaitMessage_inj hmessage
    obtain rfl := hline
    obtain rfl := Hunk.text_unique hmem hmem'
    exact ⟨hname, hplain⟩
  · rintro ⟨hname, hplain⟩
    exact ⟨line, text, name, hmem, hname, hplain, rfl⟩

/-- Some removed line awaits a call of `name`, and the added line calls it without. -/
def DropsAwait (h : Hunk) (name : List Char) (text : String) : Prop :=
  (∃ l ∈ h.removed, AwaitsCall name l.toList) ∧ CallsUnawaited name text.toList

/-- The hunk is warned of the added line `text` with the number `line` exactly if that drops an
await of `name`. -/
def ReportsExactly (h : Hunk) (name : List Char) (line : Int) (text : String) : Prop :=
  ∀ path, dropped path line name ∈ ofHunk path h ↔ DropsAwait h name text

/-- A dropped await is reported exactly, unless the name is none that the scan knows or the first
call of it in the added line is awaited. -/
theorem reportsExactly_iff (h : Hunk) (name : List Char) (line : Int) (text : String)
    (hmem : (line, text) ∈ h.numberedAdditions) : ReportsExactly h name line text ↔
      (DropsAwait h name text → IsName name ∧ FirstUnawaited name text.toList) := by
  constructor
  · intro hexact hdrops
    obtain ⟨⟨hname, -⟩, hplain⟩ := (dropped_mem_ofHunk hmem).mp ((hexact "").mpr hdrops)
    exact ⟨hname, hplain⟩
  · intro hfirst path
    rw [dropped_mem_ofHunk hmem]
    constructor
    · rintro ⟨⟨-, hawaited⟩, hplain⟩
      exact ⟨hawaited, hplain.callsUnawaited⟩
    · intro hdrops
      obtain ⟨hname, hplain⟩ := hfirst hdrops
      exact ⟨⟨hname, hdrops.1⟩, hplain⟩

def replacing (old new : List String) : Hunk :=
  ⟨1, old.length, 1, new.length, old.map (fun l => "-" ++ l) ++ new.map fun l => "+" ++ l⟩

theorem removed_replacing (old new : List String) : (replacing old new).removed = old := by
  simp [replacing, Hunk.removed, Hunk.marked?, Function.comp_def]

theorem added_replacing (old new : List String) : (replacing old new).added = new := by
  simp [replacing, Hunk.added, Hunk.marked?, Function.comp_def]

theorem mem_numberedAdditions_replacing (old new : String) :
    (1, new) ∈ (replacing [old] [new]).numberedAdditions := by
  simp [replacing, Hunk.numberedAdditions, Hunk.numberFrom]

theorem awaitsCall_of_mem {s : List Char} (h : name ∈ (findAll awaitedCall s).map (·.2)) :
    AwaitsCall name s := (mem_findAll_awaitedCall.mp h).2

def outerDropped : Hunk :=
  replacing ["return await save(await load(id));"] ["return save(await load(id));"]

theorem reportsExactly_outerDropped :
    (1, "return save(await load(id));") ∈ outerDropped.numberedAdditions ∧
    ReportsExactly outerDropped "save".toList 1 "return save(await load(id));" ∧
    DropsAwait outerDropped "save".toList "return save(await load(id));" := by
  have hmem := mem_numberedAdditions_replacing "return await save(await load(id));"
    "return save(await load(id));"
  have hplain : FirstUnawaited "save".toList "return save(await load(id));".toList :=
    callsPlainly_iff.mp (by decide +kernel)
  have hawaits : AwaitsCall "save".toList "return await save(await load(id));".toList :=
    awaitsCall_of_mem (by decide +kernel)
  have hname : IsName "save".toList := ⟨'s', "ave".toList, rfl, by decide, List.all_eq_true.mp (by decide)⟩
  refine ⟨hmem, (reportsExactly_iff _ _ _ _ hmem).mpr fun _ => ⟨hname, hplain⟩, ⟨_, ?_, hawaits⟩,
    hplain.callsUnawaited⟩
  rw [outerDropped, removed_replacing]
  exact List.mem_cons_self

def secondDropped : Hunk :=
  replacing ["const a = await f(1), b = await f(2);"] ["const a = await f(1), b = f(2);"]

theorem not_reportsExactly_secondDropped :
    (1, "const a = await f(1), b = f(2);") ∈ secondDropped.numberedAdditions ∧
    DropsAwait secondDropped ['f'] "const a = await f(1), b = f(2);" ∧
    ¬ ReportsExactly secondDropped ['f'] 1 "const a = await f(1), b = f(2);" := by
  have hmem := mem_numberedAdditions_replacing "const a = await f(1), b = await f(2);"
    "const a = await f(1), b = f(2);"
  have hawaits : AwaitsCall ['f'] "const a = await f(1), b = await f(2);".toList :=
    awaitsCall_of_mem (by decide +kernel)
  have hsecond : CallsUnawaited ['f'] "const a = await f(1), b = f(2);".toList := by
    have hbefore : ¬ EndsAwaiting "const a = await f(1), b = ".toList := fun hends =>
      absurd (endsAwaiting_iff.mpr hends) (by decide +kernel)
    have hcalls : CallsAt ['f'] "const a = await f(1), b = ".toList "f(2);".toList :=
      callsAt_iff.mpr ⟨((), 2), by decide +kernel⟩
    exact ⟨_, _, by decide +kernel, hcalls, hbefore⟩
  have hdrops : DropsAwait secondDropped ['f'] "const a = await f(1), b = f(2);" := by
    refine ⟨⟨_, ?_, hawaits⟩, hsecond⟩
    rw [secondDropped, removed_replacing]
    exact List.mem_cons_self
  refine ⟨hmem, hdrops, fun hexact => ?_⟩
  obtain ⟨-, hplain⟩ := (dropped_mem_ofHunk hmem).mp ((hexact "").mpr hdrops)
  exact absurd (callsPlainly_iff.mpr hplain) (by decide +kernel)

end Risk.Warning

end ChangeImpact
