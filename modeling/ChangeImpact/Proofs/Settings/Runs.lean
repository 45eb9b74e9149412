import ChangeImpact.Proofs.Data.Results
import ChangeImpact.Proofs.Repository.Stored
import ChangeImpact.Proofs.Settings.Checked

/-!
# Settings that change and are stored

Whatever is set, the settings stay within their limits. Stored settings are loaded again as they
were just where they are spellable, and so they are if only spellable values were set.
-/

namespace ChangeImpact

namespace Settings

open Json Checked

section Set

variable {s s' : Settings}

theorem isSpellable_replaceAt? {new v w : Json} {names : List String}
    (hnew : Json.IsSpellable new) (hv : Json.IsSpellable v)
    (h : replaceAt? new names v = some w) : Json.IsSpellable w := by
  induction names generalizing v w with
  | nil => exact Option.some.inj h ▸ hnew
  | cons name r ih =>
    cases v with
    | object fields =>
      rw [replaceAt?] at h
      split at h
      next old hold =>
        have hfields := isSpellable_object.mp hv
        obtain ⟨u, hu, rfl⟩ := Option.map_eq_some_iff.mp h
        refine .object fun f hf => ?_
        rcases mem_put hf with heq | hf
        · exact heq ▸ ih (hfields _ (mem_of_lookup hold)) hu
        · exact hfields f hf
      next => cases h
    | _ => cases h

theorem set_eq_ok {key : String} {value : Json} (h : s.set key value = .ok s') :
    ∃ v, replaceAt? value (Text.fields '.' key) s.toJson = some v ∧ check v = good s' := by
  rw [set] at h
  split at h
  · cases h
  next v hv =>
    split at h
    next hcheck => exact ⟨v, hv, hcheck.trans (congrArg good (Except.ok.inj h))⟩
    next => cases h

end Set

section Runs

def after (s : Settings) (call : String × Json) : Settings :=
  match s.set call.1 call.2 with
  | .ok s' => s'
  | .error _ => s

def run (s : Settings) : List (String × Json) → List Settings
  | [] => [s]
  | call :: calls => s :: run (s.after call) calls

theorem after_cases (s : Settings) (call : String × Json) :
    s.set call.1 call.2 = .ok (s.after call) ∨ s.after call = s := by
  rw [after]
  cases s.set call.1 call.2 with
  | ok s' => exact .inl rfl
  | error e => exact .inr rfl

theorem withinLimits_after {s : Settings} (h : s.WithinLimits) (call : String × Json) :
    (s.after call).WithinLimits := by
  rcases s.after_cases call with hset | hsame
  · obtain ⟨v, -, hcheck⟩ := set_eq_ok hset
    exact withinLimits_of_check hcheck
  · rwa [hsame]

theorem isSpellable_after {s : Settings} (h : s.IsSpellable) {call : String × Json}
    (hcall : Json.IsSpellable call.2) : (s.after call).IsSpellable := by
  rcases s.after_cases call with hset | hsame
  · obtain ⟨v, hreplace, hcheck⟩ := set_eq_ok hset
    exact check_keeps v _ (isSpellable_replaceAt? hcall (isSpellable_toJson h) hreplace) hcheck
  · rwa [hsame]

theorem run_induction {P : Settings → Prop} {calls : List (String × Json)} {s : Settings}
    (start : P s) (step : ∀ s, P s → ∀ call ∈ calls, P (s.after call)) :
    ∀ t ∈ s.run calls, P t := by
  induction calls generalizing s with
  | nil => exact List.forall_mem_singleton.mpr start
  | cons call calls ih =>
    refine List.forall_mem_cons.mpr ⟨start, ih (step s start call List.mem_cons_self) ?_⟩
    exact fun t ht c hc => step t ht c (List.mem_cons_of_mem call hc)

end Runs

end Settings

namespace Repository

open Json Checked Settings

/-- A place of the disk where settings can be stored: the disk takes the path of their file, and
nothing lies in its way. -/
structure IsPlace (disk : Tree) (root : Path) : Prop where
  names : ∀ p ∈ root.parts, p.utf8ByteSize ≤ Tree.nameLimit
  short : (settingsFile root).text.utf8ByteSize < Tree.pathLimit
  noFile : disk.isFileAt (root.child settingsFolder) = false
  notInFile : disk.leadsThroughFile (root.child settingsFolder) = false
  noFolder : disk.isFolderAt (settingsFile root) = false

variable {disk : Tree} {root : Path}

section Place

theorem child_settingsFolder (root : Path) :
    root.child settingsFolder = root.down [".impactlens"] := by
  have hfolder : Path.ofString settingsFolder = ⟨.relative, [".impactlens"]⟩ := by decide
  rw [Path.child, hfolder]
  rfl

theorem settingsFile_eq (root : Path) :
    settingsFile root = root.down [".impactlens", "config.json"] := by
  have hfile : Path.ofString "config.json" = ⟨.relative, ["config.json"]⟩ := by decide
  rw [settingsFile, child_settingsFolder, Path.child, hfile]
  simp [Path.join, Path.isAbsolute, Path.down]

theorem IsPlace.refuses_file (h : IsPlace disk root) (t : Tree) :
    t.refuses (settingsFile root) = false := by
  refine Tree.refuses_eq_false ?_ h.short t
  rw [settingsFile_eq]
  exact List.forall_mem_append.mpr ⟨h.names, by decide⟩

variable (resolved : ∀ p ∈ root.parts, Tree.IsName p)

include resolved

theorem isName_down {below : List String} (h : ∀ p ∈ below, Tree.IsName p) :
    ∀ p ∈ (root.down below).parts, Tree.IsName p :=
  List.forall_mem_append.mpr ⟨resolved, h⟩

theorem holdsNull_down {below : List String} (h : ∀ p ∈ below, Tree.IsName p) :
    (root.down below).holdsNull = false :=
  List.any_eq_false.mpr fun p hp => by simpa using (isName_down resolved h p hp).2.2

theorem refuses_settingsFolder (h : disk.refuses (settingsFile root) = false) :
    disk.refuses (root.child settingsFolder) = false := by
  rw [settingsFile_eq] at h
  rw [child_settingsFolder]
  refine Bool.eq_false_iff.mpr fun hrefused => Bool.eq_false_iff.mp h ?_
  exact Tree.refuses_of_prefix ⟨["config.json"], rfl⟩ (holdsNull_down resolved (by decide)) hrefused

/-- Nothing keeps settings from being saved just where the place can hold them and their integers
can be written. -/
theorem saveFault?_eq_none_iff {s : Settings} :
    saveFault? disk root s = none ↔
      IsPlace disk root ∧ ∀ n ∈ s.integers, Text.IsReadable n.natAbs := by
  have hfile : (settingsFile root).holdsNull = false :=
    settingsFile_eq root ▸ holdsNull_down resolved (by decide)
  have hfolder : (root.child settingsFolder).holdsNull = false :=
    child_settingsFolder root ▸ holdsNull_down resolved (by decide)
  have hintegers : s.integers.any Template.Layout.isOverlong = false ↔
      ∀ n ∈ s.integers, Text.IsReadable n.natAbs := by
    simp [List.any_eq_false, Template.Layout.isOverlong, Text.IsReadable]
  have hparts : (root.child settingsFolder).parts.any (Tree.nameLimit < ·.utf8ByteSize) = false ↔
      ∀ p ∈ root.parts, p.utf8ByteSize ≤ Tree.nameLimit := by
    have hown : (".impactlens".utf8ByteSize ≤ Tree.nameLimit) = True := eq_true (by decide)
    simp only [child_settingsFolder, Path.down, List.any_eq_false, decide_eq_true_eq, Nat.not_lt,
      List.forall_mem_append, List.forall_mem_singleton, hown, and_true]
  simp only [saveFault?, ite_some_eq_none_iff, Bool.not_eq_true, and_true, hintegers, hparts]
  constructor
  · rintro ⟨-, -, hnoFile, hnotInFile, hnames, hwritten, htaken, hnoFolder⟩
    exact ⟨⟨hnames, Tree.short_of_taken hfile htaken, hnoFile, hnotInFile, hnoFolder⟩, hwritten⟩
  · rintro ⟨place, hwritten⟩
    have htaken := place.refuses_file disk
    exact ⟨hfolder, refuses_settingsFolder resolved htaken, place.noFile, place.notInFile,
      place.names, hwritten, htaken, place.noFolder⟩

end Place

theorem saveSettings_eq_ok_iff {s : Settings} {disk' : Tree} :
    saveSettings disk root s = .ok disk' ↔ saveFault? disk root s = none ∧
      disk.write (settingsFile root) (Text.Utf8.encode (Json.write .stored s.toJson).toList) =
        disk' := by
  rw [saveSettings]
  cases saveFault? disk root s with
  | some e => simp
  | none => simp

theorem IsPlace.loadSettings (place : IsPlace disk root)
    (resolved : ∀ p ∈ root.parts, Tree.IsName p) (m : Machine) {s : Settings} {disk' : Tree}
    (h : saveSettings disk root s = .ok disk') :
    loadSettings m disk' root = (parseSettings m.nesting (Json.write .stored s.toJson)).mapError
      (⟨.settings, settingsFile root, ·⟩) := by
  obtain ⟨-, rfl⟩ := saveSettings_eq_ok_iff.mp h
  have hnull : (settingsFile root).holdsNull = false :=
    settingsFile_eq root ▸ holdsNull_down resolved (by decide)
  have hup : ".." ∉ (settingsFile root).parts := fun hup =>
    (isName_down resolved (by decide) _ (settingsFile_eq root ▸ hup)).2.1 rfl
  have hstored := Tree.at?_write hup disk
    (Text.Utf8.encode (Json.write .stored s.toJson).toList)
  have htaken := place.refuses_file (disk.write (settingsFile root)
    (Text.Utf8.encode (Json.write .stored s.toJson).toList))
  rw [Repository.loadSettings, hnull, Source.lookFault?, htaken, hstored,
    readStored_encode hnull htaken hstored]
  simp only [Option.isNone_some, Bool.false_eq_true, if_false, Except.bind]

theorem takes_toJson (m : Machine) {s : Settings} (h : s.IsSpellable) :
    (Dialect.lenient m.nesting).Takes s.toJson := by
  obtain ⟨room, hroom⟩ : ∃ room, m.nesting = room + 3 :=
    Nat.exists_eq_add_of_le' (Nat.le_trans (by decide) m.sixteen_le_nesting)
  rw [Dialect.Takes, Dialect.lenient, hroom]
  exact fits_toJson h

theorem parseSettings_write (m : Machine) {s : Settings} (within : s.WithinLimits)
    (spellable : s.IsSpellable) :
    parseSettings m.nesting (Json.write .stored s.toJson) = .ok s := by
  have hread : Json.read m.nesting (Json.write .stored s.toJson) = .ok s.toJson := by
    rcases readLoose_write .stored (isWritable_toJson spellable) with ⟨-, hread⟩ | ⟨hnot, -⟩
    · exact hread
    · exact absurd (takes_toJson m spellable) hnot
  obtain ⟨fields, hfields⟩ : ∃ fields, s.toJson = .object fields := ⟨_, rfl⟩
  have hcheck : checkFields fields = good s := by
    have hgood := check_toJson.mpr within
    rwa [hfields] at hgood
  rw [parseSettings, hread, hfields]
  simp only [hcheck, Checked.toExcept, Except.mapError]

theorem isSpellable_of_parseSettings {nesting : Nat} {text : String} {s : Settings}
    (h : parseSettings nesting text = .ok s) : s.IsSpellable := by
  unfold parseSettings at h
  split at h
  next => cases h
  next => cases h
  next => cases h
  next fields hread =>
    have hcheck : check (.object fields) = good s := by
      change checkFields fields = good s
      cases hfields : checkFields fields with
      | good t =>
        rw [hfields] at h
        rw [Except.ok.inj h]
      | bad issues =>
        rw [hfields] at h
        cases h
    exact check_keeps _ _ (isSpellable_of_read hread) hcheck
  next => cases h

theorem isReadable_of_isSpellable {s : Settings} (h : s.IsSpellable) :
    ∀ n ∈ s.integers, Text.IsReadable n.natAbs := by
  obtain ⟨⟨-, hfile, hworkers⟩, ⟨-, hlisting, hlength⟩, hdepth,
    ⟨-, hbytes, hfiles, hcontent, hmessages⟩, -⟩ := h
  simp only [integers, List.forall_mem_cons, List.not_mem_nil, false_implies, implies_true,
    and_true]
  exact ⟨hfile, hworkers, hlisting, hlength, hdepth, hbytes, hfiles, hcontent, hmessages⟩

/-- Settings are loaded again as they were saved just where they are spellable and the place can
hold them. -/
theorem loadSettings_saveSettings_iff (resolved : ∀ p ∈ root.parts, Tree.IsName p) (m : Machine)
    {s : Settings} (within : s.WithinLimits) :
    (∃ disk', saveSettings disk root s = .ok disk' ∧ loadSettings m disk' root = .ok s) ↔
      IsPlace disk root ∧ s.IsSpellable := by
  constructor
  · rintro ⟨disk', hsave, hload⟩
    have hfault := (saveSettings_eq_ok_iff.mp hsave).1
    have place := ((saveFault?_eq_none_iff resolved).mp hfault).1
    rw [place.loadSettings resolved m hsave] at hload
    exact ⟨place, isSpellable_of_parseSettings (mapError_eq_ok.mp hload)⟩
  · rintro ⟨place, spellable⟩
    have hfault : saveFault? disk root s = none :=
      (saveFault?_eq_none_iff resolved).mpr ⟨place, isReadable_of_isSpellable spellable⟩
    have hsave := saveSettings_eq_ok_iff.mpr ⟨hfault, rfl⟩
    refine ⟨_, hsave, ?_⟩
    rw [place.loadSettings resolved m hsave, mapError_eq_ok]
    exact parseSettings_write m within spellable

/-- All through a run from the default settings, with whatever keys and values, the settings are
within their limits. They can be saved and loaded again as they were where they are spellable and
the place can hold them, and nowhere else. They are spellable if all values are that are set. -/
theorem run_withinLimits_loads (calls : List (String × Json)) :
    ∀ s ∈ Settings.run {} calls, s.WithinLimits ∧
      (∀ m disk root, (∀ p ∈ root.parts, Tree.IsName p) →
        ((∃ disk', saveSettings disk root s = .ok disk' ∧ loadSettings m disk' root = .ok s) ↔
          IsPlace disk root ∧ s.IsSpellable)) ∧
      ((∀ call ∈ calls, Json.IsSpellable call.2) → s.IsSpellable) := by
  have hlimits : ∀ s ∈ Settings.run {} calls, s.WithinLimits :=
    run_induction (by decide) fun s hs call _ => withinLimits_after hs call
  intro s hs
  refine ⟨hlimits s hs, fun m disk root resolved => ?_, fun spellable => ?_⟩
  · exact loadSettings_saveSettings_iff resolved m (hlimits s hs)
  · have hspellable : ∀ s ∈ Settings.run {} calls, s.IsSpellable :=
      run_induction isSpellable_default fun s hs call hcall =>
        isSpellable_after hs (spellable call hcall)
    exact hspellable s hs

def fourCalls : List (String × Json) :=
  [("impact.max_depth", .text "5"), ("indexer.workers", .int 0), ("impact.width", .null),
    ("diff", .object [("max_diff_bytes", .int 7)])]

theorem isSpellable_fourCalls : ∀ call ∈ fourCalls, Json.IsSpellable call.2 := by
  simp only [fourCalls, List.forall_mem_cons, List.not_mem_nil, false_implies, implies_true,
    and_true, true_and, isSpellable_object, isSpellable_text, isSpellable_int, isSpellable_null]
  exact ⟨unpaired_ofString _, isReadable_default (by decide), isReadable_default (by decide)⟩

def topPlace : Path := ⟨.root, ["r"]⟩

theorem isName_topPlace : ∀ p ∈ topPlace.parts, Tree.IsName p := by decide

theorem isPlace_topPlace : IsPlace .empty topPlace where
  names := by decide
  short := by decide
  noFile := by decide
  notInFile := by decide
  noFolder := by decide

theorem run_fourCalls :
    (Settings.run {} fourCalls).map (fun s => (s.impact.maxDepth, s.diff.maxDiffBytes)) =
        [(2, 50000), (5, 50000), (5, 50000), (5, 50000), (5, 7)] ∧
      ∀ s ∈ Settings.run {} fourCalls, ∃ disk,
        saveSettings .empty topPlace s = .ok disk ∧ loadSettings .usual disk topPlace = .ok s := by
  refine ⟨by decide +kernel, fun s hs => ?_⟩
  obtain ⟨-, hloads, hspellable⟩ := run_withinLimits_loads fourCalls s hs
  exact (hloads .usual _ _ isName_topPlace).mpr
    ⟨isPlace_topPlace, hspellable isSpellable_fourCalls⟩

def apartName : LooseText := ⟨[.surrogate ⟨0x3D, by decide⟩, .surrogate ⟨0x480, by decide⟩]⟩

def apartCall : String × Json := ("tests.test_dirs", .list [.text apartName])

def withFolder (name : LooseText) : Settings :=
  let s : Settings := {}
  { s with tests := { s.tests with testDirs := [name] } }

theorem after_apartCall : Settings.after {} apartCall = withFolder apartName := by decide +kernel

theorem not_isSpellable_apartCall : ¬(Settings.after {} apartCall).IsSpellable := fun h => by
  rw [after_apartCall] at h
  exact absurd (h.tests.1 _ List.mem_cons_self) (by decide)

/-- A disk with a file in the place of the folder for settings. -/
def occupied : Tree := Tree.empty.write (topPlace.child settingsFolder) []

/-- The two surrogates are stored as two escapes, which are read as one character, and nothing is
stored where a file lies in the way. -/
theorem not_loadsAfterSaving :
    (∃ s ∈ Settings.run {} [apartCall], ∃ disk, saveSettings .empty topPlace s = .ok disk ∧
      loadSettings .usual disk topPlace ≠ .ok s) ∧
    ∀ s ∈ Settings.run {} [], saveSettings occupied topPlace s =
      .error (.fileExists (topPlace.child settingsFolder)) := by
  constructor
  · have hfault : saveFault? .empty topPlace (Settings.after {} apartCall) = none := by
      rw [after_apartCall]
      decide +kernel
    have hsave := saveSettings_eq_ok_iff.mpr ⟨hfault, rfl⟩
    refine ⟨_, List.mem_cons_of_mem _ List.mem_cons_self, _, hsave, fun hload => ?_⟩
    rw [isPlace_topPlace.loadSettings isName_topPlace _ hsave] at hload
    exact not_isSpellable_apartCall (isSpellable_of_parseSettings (mapError_eq_ok.mp hload))
  · intro s hs
    have hfault : saveFault? occupied topPlace {} =
        some (.fileExists (topPlace.child settingsFolder)) := by decide +kernel
    rw [List.mem_singleton.mp hs, saveSettings, hfault]

end Repository

end ChangeImpact
