import ChangeImpact.Evidence.TestName
import ChangeImpact.Proofs.Data.Entries
import ChangeImpact.Proofs.Path.Named

/-!
# Where conventions put a test

A convention says for a file which folder beside it a test of it stands in, if not in the folder of
the file itself, and which stem and which ending the name of the test has. The tests listed for a
file stand where the conventions of its language put them, and nowhere else.
-/

namespace ChangeImpact.Evidence

open ChangeImpact.Path

def testFolders : List String := ["__tests__", "test", "tests"]

/-- For a file with this stem and suffix, in a known language or none, there may be a test in this
folder beside it whose name has this stem and this ending. -/
inductive Convention (stem suffix : String) :
    Option Language → Option String → String → String → Prop where
  | script {folder : Option String} {mark ending : String} (marked : mark ∈ [".test", ".spec"])
      (inScript : ending = suffix ∨ ending ∈ scriptSuffixes)
      (placed : ∀ f ∈ folder, f ∈ testFolders) :
      Convention stem suffix (some .ecmascript) folder (stem ++ mark) ending
  | scriptAlike {ending : String} (inScript : ending = suffix ∨ ending ∈ scriptSuffixes) :
      Convention stem suffix (some .ecmascript) (some "__tests__") stem ending
  | pythonFront {folder : Option String} (placed : ∀ f ∈ folder, f ∈ ["test", "tests"]) :
      Convention stem suffix (some .python) folder ("test_" ++ stem) ".py"
  | pythonBehind {folder : Option String} (placed : ∀ f ∈ folder, f ∈ ["test", "tests"]) :
      Convention stem suffix (some .python) folder (stem ++ "_test") ".py"
  | go : Convention stem suffix (some .go) none (stem ++ "_test") ".go"
  | other {mark : String} (marked : mark ∈ [".test", ".spec"]) :
      Convention stem suffix none none (stem ++ mark) suffix

def placeIn (dir : Path) (folder : Option String) (name : String) : Path :=
  (folder.elim dir dir.child).child name

section Placed

variable {dir : Path} {folder : Option String} {name path test : String}

theorem isPart_elim (hdir : ∀ q ∈ dir.parts, IsPart q) (hfolder : ∀ f ∈ folder, IsPart f) :
    ∀ q ∈ (folder.elim dir dir.child).parts, IsPart q := by
  cases folder with
  | none => exact hdir
  | some f => exact isPart_child hdir (hfolder f rfl)

theorem ofString_text_placeIn (hdir : ∀ q ∈ dir.parts, IsPart q)
    (hfolder : ∀ f ∈ folder, IsPart f) (hname : IsPart name) :
    ofString (placeIn dir folder name).text = placeIn dir folder name :=
  ofString_text_child (isPart_elim hdir hfolder) hname

theorem name_placeIn (h : IsPart name) : (placeIn dir folder name).name = name := name_child h

theorem parent_placeIn (h : IsPart name) :
    (placeIn dir folder name).parent = folder.elim dir dir.child := parent_child h

theorem mem_places {folders : List String} :
    path ∈ (dir.child name).text :: folders.map (fun f => ((dir.child f).child name).text) ↔
      ∃ folder : Option String, (∀ f ∈ folder, f ∈ folders) ∧
        path = (placeIn dir folder name).text := by
  simp only [List.mem_cons, List.mem_map, Option.exists, placeIn, Option.elim_none,
    Option.elim_some, Option.mem_def, reduceCtorEq, false_implies, implies_true, true_and,
    Option.some.injEq, forall_eq', eq_comm (a := path)]

theorem mem_scriptEndings {suffix ending : String} :
    ending ∈ suffix :: scriptSuffixes.filter (· != suffix) ↔
      ending = suffix ∨ ending ∈ scriptSuffixes := by
  rw [List.mem_cons, List.mem_filter, bne_iff_ne]
  by_cases h : ending = suffix
  · simp only [h, true_or]
  · simp only [h, false_or, ne_eq, not_false_eq_true, and_true]

theorem append_testMark (stem : String) :
    stem ++ "_test" ++ ".py" = stem ++ "_test.py" ∧
      stem ++ "_test" ++ ".go" = stem ++ "_test.go" := by
  have hpy : "_test" ++ ".py" = "_test.py" := by decide
  have hgo : "_test" ++ ".go" = "_test.go" := by decide
  rw [String.append_assoc, String.append_assoc, hpy, hgo]
  exact ⟨rfl, rfl⟩

theorem mem_conventionalTests_iff : test ∈ conventionalTests path ↔ ∃ folder base ending,
    Convention (ofString path).stem (ofString path).suffix (Language.ofPath? path) folder base
      ending ∧ test = (placeIn (ofString path).parent folder (base ++ ending)).text := by
  unfold conventionalTests
  dsimp only
  rw [List.mem_eraseDups]
  generalize (ofString path).stem = stem, (ofString path).suffix = suffix,
    (ofString path).parent = dir, Language.ofPath? path = language
  obtain ⟨hpy, hgo⟩ := append_testMark stem
  constructor
  · intro h
    -- The conventions are listed language by language, as they are told by `Convention`.
    split at h
    next =>
      obtain h | h := List.mem_append.mp h
      · obtain ⟨mark, hmark, h⟩ := List.mem_flatMap.mp h
        obtain ⟨ending, hending, h⟩ := List.mem_flatMap.mp h
        obtain ⟨folder, hfolder, heq⟩ := mem_places.mp h
        exact ⟨folder, _, ending, .script hmark (mem_scriptEndings.mp hending) hfolder, heq⟩
      · obtain ⟨ending, hending, heq⟩ := List.mem_map.mp h
        exact ⟨_, _, ending, .scriptAlike (mem_scriptEndings.mp hending), heq.symm⟩
    next =>
      obtain ⟨name, hname, h⟩ := List.mem_flatMap.mp h
      obtain ⟨folder, hfolder, heq⟩ := mem_places.mp h
      obtain hname | hname := List.mem_cons.mp hname
      · rw [hname] at heq
        exact ⟨folder, _, _, .pythonFront hfolder, heq⟩
      · rw [List.mem_singleton.mp hname, ← hpy] at heq
        exact ⟨folder, _, _, .pythonBehind hfolder, heq⟩
    next =>
      rw [← hgo] at h
      exact ⟨_, _, _, .go, List.mem_singleton.mp h⟩
    next =>
      obtain ⟨mark, hmark, heq⟩ := List.mem_map.mp h
      exact ⟨_, _, _, .other hmark, heq.symm⟩
  · intro h
    obtain ⟨folder, base, ending, hconvention, heq⟩ := h
    cases hconvention with
    | script hmark hending hfolder =>
      refine List.mem_append_left _ (List.mem_flatMap.mpr ⟨_, hmark, ?_⟩)
      exact List.mem_flatMap.mpr ⟨_, mem_scriptEndings.mpr hending,
        mem_places.mpr ⟨folder, hfolder, heq⟩⟩
    | scriptAlike hending =>
      exact List.mem_append_right _
        (List.mem_map.mpr ⟨_, mem_scriptEndings.mpr hending, heq.symm⟩)
    | pythonFront hfolder =>
      exact List.mem_flatMap.mpr ⟨_, List.mem_cons_self, mem_places.mpr ⟨folder, hfolder, heq⟩⟩
    | pythonBehind hfolder =>
      rw [hpy] at heq
      exact List.mem_flatMap.mpr ⟨_, List.mem_cons_of_mem _ List.mem_cons_self,
        mem_places.mpr ⟨folder, hfolder, heq⟩⟩
    | go =>
      rw [hgo] at heq
      exact List.mem_singleton.mpr heq
    | other hmark => exact List.mem_map.mpr ⟨_, hmark, heq.symm⟩

end Placed

namespace Convention

variable {stem suffix base ending : String} {language : Option Language} {folder : Option String}

theorem mem_testFolders (h : Convention stem suffix language folder base ending) :
    ∀ f ∈ folder, f ∈ testFolders := by
  have hpython : ∀ f ∈ ["test", "tests"], f ∈ testFolders := by decide
  cases h with
  | script _ _ hplaced => exact hplaced
  | scriptAlike => simp [testFolders]
  | pythonFront hplaced => exact fun f hf => hpython f (hplaced f hf)
  | pythonBehind hplaced => exact fun f hf => hpython f (hplaced f hf)
  | go => simp
  | other => simp

theorem ending_cases (h : Convention stem suffix language folder base ending) :
    ending = suffix ∨ ∃ l, language = some l ∧ ending ∈ l.suffixes := by
  have hscript : ∀ e ∈ scriptSuffixes, e ∈ Language.ecmascript.suffixes := by decide
  cases h with
  | script _ hending => exact hending.imp_right fun he => ⟨_, rfl, hscript _ he⟩
  | scriptAlike hending => exact hending.imp_right fun he => ⟨_, rfl, hscript _ he⟩
  | pythonFront => exact .inr ⟨_, rfl, by decide⟩
  | pythonBehind => exact .inr ⟨_, rfl, by decide⟩
  | go => exact .inr ⟨_, rfl, by decide⟩
  | other => exact .inl rfl

theorem base_ne (h : Convention stem suffix language none base ending) : base ≠ stem := by
  have hmark : ∀ m ∈ [".test", ".spec"], m ≠ "" := by decide
  cases h with
  | script hmarked => simpa using hmark _ hmarked
  | pythonFront => simp
  | pythonBehind => simp
  | go => simp
  | other hmarked => simpa using hmark _ hmarked

end Convention

theorem exists_convention (stem suffix : String) (language : Option Language) :
    ∃ base ending, Convention stem suffix language none base ending := by
  cases language with
  | none => exact ⟨_, _, .other List.mem_cons_self⟩
  | some l =>
    cases l with
    | ecmascript => exact ⟨_, _, .script List.mem_cons_self (.inl rfl) (by simp)⟩
    | python => exact ⟨_, _, .pythonFront (by simp)⟩
    | go => exact ⟨_, _, .go⟩

theorem conventionalTests_ne_nil (path : String) : conventionalTests path ≠ [] := by
  obtain ⟨base, ending, h⟩ := exists_convention (ofString path).stem (ofString path).suffix
    (Language.ofPath? path)
  exact List.ne_nil_of_mem (mem_conventionalTests_iff.mpr ⟨none, base, ending, h, rfl⟩)

theorem nodup_conventionalTests (path : String) : (conventionalTests path).Nodup := by
  unfold conventionalTests
  exact nodup_eraseDups _

end ChangeImpact.Evidence
