import ChangeImpact.Proofs.Evidence.Agreement
import ChangeImpact.Proofs.Path.Named
import ChangeImpact.Proofs.Source.Walk

/-!
# Tests below the test folders

A folder is entered as long as fewer folders than the limit lie above it. So the listing of the
test folders holds just the tests with at most that many folders between, whatever other test
folders they also lie in, and each of them once; a folder on the way that cannot be opened is passed
over with all that it holds. But a test folder that cannot be looked up, since its name is too long,
is not passed over like one that is not there: then nothing is listed.
-/

namespace ChangeImpact

open ChangeImpact.Path ChangeImpact.Tree Evidence

namespace Source

theorem entersAll_bounded (keep : String → Bool) (limit : Int) (depth : Nat)
    (names : List String) :
    entersAll (fun depth name => keep name && decide ((depth : Int) < limit)) depth names = true ↔
      names.all keep = true ∧ (names ≠ [] → (depth + names.length : Int) ≤ limit) := by
  induction names generalizing depth with
  | nil => simp [entersAll]
  | cons name r ih =>
    rw [entersAll, Bool.and_eq_true, ih, List.all_cons, Bool.and_eq_true, Bool.and_eq_true,
      decide_eq_true_eq]
    cases r with
    | nil =>
      simp only [List.all_nil, ne_eq, not_true_eq_false, false_implies, and_self, and_true,
        reduceCtorEq, not_false_eq_true, true_implies, List.length_cons, List.length_nil]
      exact and_congr_right fun _ => by omega
    | cons next r =>
      simp only [ne_eq, reduceCtorEq, not_false_eq_true, true_implies, List.length_cons]
      constructor
      · intro h
        obtain ⟨⟨hname, -⟩, hrest, hdeep⟩ := h
        exact ⟨⟨hname, hrest⟩, by omega⟩
      · intro h
        obtain ⟨⟨hname, hrest⟩, hdeep⟩ := h
        exact ⟨⟨hname, by omega⟩, hrest, by omega⟩

theorem length_le_toNat_iff {names : List String} {limit : Int} :
    names.length ≤ limit.toNat ↔ (names ≠ [] → ((0 : Nat) + names.length : Int) ≤ limit) := by
  rw [← List.length_pos_iff]
  omega

end Source

namespace Repository

def listTestFolders (r : Repository) : Except DiskFault (List String) :=
  ifNoFault (r.listingFault? []) r.listedTests

structure LiesBelow (r : Repository) (folder : String) (between : List String) (file : String) :
    Prop where
  isFolder : r.disk.isFolderAt (r.root.child folder) = true
  isFile : r.disk.isFileAt (r.root.child file) = true
  names : ∀ name ∈ between, IsName name
  way : ∃ name, IsName name ∧ file = ofParts ((ofString folder).parts ++ (between ++ [name]))

/-- A test below a test folder, not deeper than the limit and not in an ignored folder. -/
def IsWithinReach (r : Repository) (file : String) : Prop :=
  ∃ folder ∈ r.settings.tests.folders, ∃ between, r.LiesBelow folder between file ∧
    between.length ≤ r.settings.tests.maxListingDepth.toNat ∧
    ∀ name ∈ between, name ∉ r.settings.indexer.ignored

/-- A test within reach by a way on which every folder can be opened. -/
def IsWithinOpenReach (r : Repository) (file : String) : Prop :=
  ∃ folder ∈ r.settings.tests.folders, ∃ between, r.LiesBelow folder between file ∧
    between.length ≤ r.settings.tests.maxListingDepth.toNat ∧
    (∀ name ∈ between, name ∉ r.settings.indexer.ignored) ∧
    ∀ above, above <+: between → r.disk.refuses ((r.root.child folder).down above) = false

structure ListsTests (r : Repository) (listed : List String) : Prop where
  increasing : listed.Pairwise (· < ·)
  mem_iff : ∀ file, file ∈ listed ↔
    (Language.ofPath? file).isSome = true ∧ looksLikeTest file = true ∧ r.IsWithinReach file

section

variable {r : Repository} {folder : String}

theorem below?_child (h : (ofString folder).isAbsolute = false) (p : Path) :
    p.below? (p.child folder) = some (ofString folder).parts := by
  rw [child_of_relative h, below?]
  simp

theorem at?_child_below (h : (ofString folder).isAbsolute = false) {below : List String}
    (hbelow : ∀ name ∈ below, IsName name) (disk : Tree) (p : Path) :
    disk.at? (p.child (ofParts ((ofString folder).parts ++ below))) =
      (disk.at? (p.child folder)).bind (·.find below) := by
  have hparts : ∀ q ∈ (ofString folder).parts ++ below, IsPart q :=
    List.forall_mem_append.mpr
      ⟨fun q hq => isPart_of_mem_ofString hq, fun q hq => (hbelow q hq).1⟩
  have hup : ".." ∉ below := fun hmem => (hbelow _ hmem).2.1 rfl
  rw [child, ofString_ofParts hparts, child_of_relative h, Tree.at?, Tree.at?,
    ← follow_append hup, List.append_assoc]
  rfl

theorem not_liesBelow (h : ∀ entries, r.disk.at? (r.root.child folder) ≠ some (.folder entries))
    {between : List String} {file : String} : ¬ r.LiesBelow folder between file := by
  intro hlies
  obtain ⟨entries, ht⟩ := isFolderAt_iff.mp hlies.isFolder
  exact h entries ht

theorem liesBelow_iff {entries : List (String × Tree)} (hwf : (Tree.folder entries).WellFormed)
    (ht : r.disk.at? (r.root.child folder) = some (.folder entries))
    (h : (ofString folder).isAbsolute = false) {between : List String} {file : String} :
    r.LiesBelow folder between file ↔
      ∃ name, ((Tree.folder entries).find (between ++ [name])).any Tree.isFile = true ∧
        file = ofParts ((ofString folder).parts ++ (between ++ [name])) := by
  constructor
  · intro hlies
    obtain ⟨-, hfile, hbetween, name, hname, rfl⟩ := hlies
    have hnames : ∀ q ∈ between ++ [name], IsName q :=
      List.forall_mem_append.mpr ⟨hbetween, List.forall_mem_singleton.mpr hname⟩
    rw [isFileAt, at?_child_below h hnames, ht, Option.bind_some] at hfile
    exact ⟨name, hfile, rfl⟩
  · intro hlies
    obtain ⟨name, hfile, rfl⟩ := hlies
    obtain ⟨u, hu, -⟩ := (Option.any_eq_true _ _).mp hfile
    have hnames := hwf.isName_of_find hu
    refine ⟨?_, ?_, fun q hq => hnames q (List.mem_append_left _ hq), name,
      hnames name (by simp), rfl⟩
    · exact isFolderAt_iff.mpr ⟨entries, ht⟩
    · rw [isFileAt, at?_child_below h hnames, ht, Option.bind_some, hfile]

theorem filesUnder_of_not_folder {start : Path}
    (h : ∀ entries, r.disk.at? start ≠ some (.folder entries)) : r.filesUnder start = [] := by
  rw [filesUnder, Source.entries_of_not_folder h, Source.listFiles_empty]

/-- The files reached from a folder lie not too deep and below folders that are kept and can be
opened. -/
theorem mem_filesUnder {entries : List (String × Tree)} {start : Path} {names : List String}
    (hwf : r.disk.WellFormed) (ht : r.disk.at? start = some (.folder entries)) :
    names ∈ r.filesUnder start ↔ ((Tree.folder entries).find names).any Tree.isFile = true ∧
      (names.dropLast.all (fun name => !r.settings.indexer.ignored.contains name) = true ∧
        names.dropLast.length ≤ r.settings.tests.maxListingDepth.toNat) ∧
      Source.opensTo (Source.shutBelow r.disk start) names = true := by
  have hbounded := Source.entersAll_bounded (fun name => !r.settings.indexer.ignored.contains name)
    r.settings.tests.maxListingDepth 0 names.dropLast
  rw [filesUnder, ht, Option.getD_some, Tree.entries, (Source.listFiles_start_perm _ _ _).mem_iff,
    Source.mem_filesBelow (hwf.at? ht).1, Source.length_le_toNat_iff, ← hbounded]
  rfl

theorem mem_testsIn (hwf : r.disk.WellFormed) (h : (ofString folder).isAbsolute = false)
    {file : String} : file ∈ r.testsIn folder ↔
      ((Language.ofPath? file).isSome = true ∧ looksLikeTest file = true) ∧
        ∃ between, r.LiesBelow folder between file ∧
          between.length ≤ r.settings.tests.maxListingDepth.toNat ∧
          (∀ name ∈ between, name ∉ r.settings.indexer.ignored) ∧
          ∀ above, above <+: between →
            r.disk.refuses ((r.root.child folder).down above) = false := by
  rw [testsIn, below?_child h]
  dsimp only
  rw [List.mem_filter, Bool.and_eq_true, and_comm, List.mem_map]
  refine and_congr_right fun _ => ?_
  by_cases hfolder : ∃ entries, r.disk.at? (r.root.child folder) = some (.folder entries)
  · obtain ⟨entries, ht⟩ := hfolder
    simp only [mem_filesUnder hwf ht, liesBelow_iff (hwf.at? ht).1 ht h]
    constructor
    · intro hlisted
      obtain ⟨names, ⟨hfile, ⟨hkept, hdeep⟩, hopen⟩, rfl⟩ := hlisted
      obtain rfl | ⟨between, name, rfl⟩ := List.eq_nil_or_concat names
      · exact absurd hfile (by simp [find, Tree.isFile, Tree.isFolder])
      · rw [List.concat_eq_append] at *
        rw [List.dropLast_concat] at hkept hdeep
        exact ⟨between, ⟨name, hfile, rfl⟩, hdeep, by simpa using hkept,
          Source.opensTo_concat.mp hopen⟩
    · intro hlies
      obtain ⟨between, ⟨name, hfile, rfl⟩, hdeep, hkept, hopen⟩ := hlies
      refine ⟨between ++ [name], ⟨hfile, ⟨?_, ?_⟩, Source.opensTo_concat.mpr hopen⟩, rfl⟩
      · simpa using hkept
      · rwa [List.dropLast_concat]
  · have hnone := not_exists.mp hfolder
    rw [filesUnder_of_not_folder hnone]
    simp only [List.not_mem_nil, false_and, exists_false, false_iff]
    intro hbelow
    obtain ⟨between, hlies, -⟩ := hbelow
    exact not_liesBelow hnone hlies

theorem mem_listedTests (hwf : r.disk.WellFormed)
    (hfolders : ∀ folder ∈ r.settings.tests.folders, (ofString folder).isAbsolute = false)
    {file : String} : file ∈ r.listedTests ↔ (Language.ofPath? file).isSome = true ∧
      looksLikeTest file = true ∧ r.IsWithinOpenReach file := by
  rw [listedTests, Source.mem_sorted, List.mem_eraseDups, List.mem_flatMap]
  constructor
  · intro hlisted
    obtain ⟨folder, hmem, hfile⟩ := hlisted
    obtain ⟨⟨hlanguage, htest⟩, hbelow⟩ := (mem_testsIn hwf (hfolders folder hmem)).mp hfile
    exact ⟨hlanguage, htest, folder, hmem, hbelow⟩
  · intro hreached
    obtain ⟨hlanguage, htest, folder, hmem, hbelow⟩ := hreached
    exact ⟨folder, hmem, (mem_testsIn hwf (hfolders folder hmem)).mpr ⟨⟨hlanguage, htest⟩, hbelow⟩⟩

theorem IsWithinOpenReach.isWithinReach {file : String} (h : r.IsWithinOpenReach file) :
    r.IsWithinReach file := by
  obtain ⟨folder, hmem, between, hlies, hdeep, hkept, -⟩ := h
  exact ⟨folder, hmem, between, hlies, hdeep, hkept⟩

theorem isWithinOpenReach_of_forall (hwf : r.disk.WellFormed)
    (hfolders : ∀ folder ∈ r.settings.tests.folders, (ofString folder).isAbsolute = false)
    (hopen : ∀ folder ∈ r.settings.tests.folders,
      ∀ names ∈ Source.filesBelow (fun _ => false) (fun _ _ => true) 0
        ((r.disk.at? (r.root.child folder)).getD .empty),
      Source.opensTo (Source.shutBelow r.disk (r.root.child folder)) names = true)
    {file : String} (h : r.IsWithinReach file) : r.IsWithinOpenReach file := by
  obtain ⟨folder, hmem, between, hlies, hdeep, hkept⟩ := h
  obtain ⟨t, ht, hfolder⟩ := (Option.any_eq_true _ _).mp hlies.isFolder
  cases t with
  | file content => cases hfolder
  | folder entries =>
    have hentries := (hwf.at? ht).1
    obtain ⟨name, hfile, -⟩ :=
      (liesBelow_iff hentries ht (hfolders folder hmem)).mp hlies
    have hentered : Source.entersAll (fun _ _ => true) 0 (between ++ [name]).dropLast = true := by
      rw [Source.entersAll_const fun _ => true]
      exact List.all_eq_true.mpr fun _ _ => rfl
    have hlisted := (Source.mem_filesBelow hentries).mpr
      ⟨hfile, hentered, Source.opensTo_of_all_open _⟩
    have hway := hopen folder hmem
    rw [ht, Option.getD_some] at hway
    exact ⟨folder, hmem, between, hlies, hdeep, hkept,
      Source.opensTo_concat.mp (hway _ hlisted)⟩

theorem listsTests_listedTests_iff (hwf : r.disk.WellFormed)
    (hfolders : ∀ folder ∈ r.settings.tests.folders, (ofString folder).isAbsolute = false) :
    r.ListsTests r.listedTests ↔ ∀ file, (Language.ofPath? file).isSome = true →
      looksLikeTest file = true → r.IsWithinReach file → r.IsWithinOpenReach file := by
  constructor
  · intro hlists file hlanguage htest hreach
    exact ((mem_listedTests hwf hfolders).mp
      ((hlists.mem_iff file).mpr ⟨hlanguage, htest, hreach⟩)).2.2
  · intro hopen
    refine ⟨Source.pairwise_lt_sorted (nodup_eraseDups _), fun file => ?_⟩
    rw [mem_listedTests hwf hfolders]
    constructor
    · intro hlisted
      obtain ⟨hlanguage, htest, hreach⟩ := hlisted
      exact ⟨hlanguage, htest, hreach.isWithinReach⟩
    · intro hlisted
      obtain ⟨hlanguage, htest, hreach⟩ := hlisted
      exact ⟨hlanguage, htest, hopen file hlanguage htest hreach⟩

theorem folderFault?_of_relative (h : (ofString folder).isAbsolute = false) :
    r.folderFault? folder = r.lookFault? folder := by
  rw [folderFault?, outsideFault?, below?_child h]
  exact Option.or_none

theorem listTestFolders_eq_ok
    (hfolders : ∀ folder ∈ r.settings.tests.folders, (ofString folder).isAbsolute = false)
    {listed : List String} : r.listTestFolders = .ok listed ↔
    (∀ folder ∈ r.settings.tests.folders, r.disk.refuses (r.root.child folder) = false) ∧
      r.listedTests = listed := by
  rw [listTestFolders, ifNoFault_eq_ok, listingFault?, List.flatMap_nil, List.filter_nil,
    List.findSome?_nil, Option.or_none, List.findSome?_eq_none_iff]
  refine and_congr_left fun _ => forall₂_congr fun folder hmem => ?_
  rw [folderFault?_of_relative (hfolders folder hmem), lookFault?, Source.lookFault?]
  simp

end

/-- The tests within reach are listed just when no test folder is refused by the disk and each of
them is reached through folders that can be opened. -/
theorem listTestFolders_iff (r : Repository) (hwf : r.disk.WellFormed)
    (hfolders : ∀ folder ∈ r.settings.tests.folders, (ofString folder).isAbsolute = false) :
    (∃ listed, r.listTestFolders = .ok listed ∧ r.ListsTests listed) ↔
      (∀ folder ∈ r.settings.tests.folders, r.disk.refuses (r.root.child folder) = false) ∧
      ∀ file, (Language.ofPath? file).isSome = true → looksLikeTest file = true →
        r.IsWithinReach file → r.IsWithinOpenReach file := by
  simp only [listTestFolders_eq_ok hfolders, ← listsTests_listedTests_iff hwf hfolders]
  constructor
  · intro hlists
    obtain ⟨_, ⟨hlooked, rfl⟩, hlists⟩ := hlists
    exact ⟨hlooked, hlists⟩
  · intro hlists
    exact ⟨_, ⟨hlists.1, rfl⟩, hlists.2⟩

def nestedTests : Repository where
  machine := .usual
  disk := .folder [("p", .folder [("tests", .folder
    [("deep", .folder [("unit", .folder [("b_test.go", .file [])])]), ("a_test.go", .file []),
      ("out", .folder [("c_test.go", .file [])])])])]
  root := ⟨.root, ["p"]⟩
  settings := { indexer := { ignoreDirs := [LooseText.ofString "out"] },
                tests := { testDirs := [LooseText.ofString "tests", LooseText.ofString "tests/deep"],
                           maxListingDepth := 1 } }

theorem listTestFolders_nestedTests : nestedTests.disk.WellFormed ∧
    (∀ folder ∈ nestedTests.settings.tests.folders, (ofString folder).isAbsolute = false) ∧
    ∃ listed, nestedTests.listTestFolders = .ok listed ∧ nestedTests.ListsTests listed ∧
      "tests/deep/unit/b_test.go" ∈ listed := by
  have hwf : nestedTests.disk.WellFormed := by
    refine .folder (by decide) (by decide) ?_
    simp only [List.forall_mem_singleton]
    refine .folder (by decide) (by decide) ?_
    simp only [List.forall_mem_singleton]
    refine .folder (by decide) (by decide) ?_
    simp only [List.forall_mem_cons]
    refine ⟨.folder (by decide) (by decide) ?_, .file [], .folder (by decide) (by decide) ?_,
      List.forall_mem_nil _⟩
    · simp only [List.forall_mem_singleton]
      refine .folder (by decide) (by decide) ?_
      simpa using Tree.WellFormed.file []
    · simpa using Tree.WellFormed.file []
  have hfolders : ∀ folder ∈ nestedTests.settings.tests.folders,
      (ofString folder).isAbsolute = false := by decide +kernel
  have hopen : ∀ folder ∈ nestedTests.settings.tests.folders,
      ∀ names ∈ Source.filesBelow (fun _ => false) (fun _ _ => true) 0
        ((nestedTests.disk.at? (nestedTests.root.child folder)).getD .empty),
      Source.opensTo (Source.shutBelow nestedTests.disk (nestedTests.root.child folder)) names =
        true := by decide +kernel
  obtain ⟨listed, hlisted, hlists⟩ := (listTestFolders_iff nestedTests hwf hfolders).mpr
    ⟨by decide +kernel, fun _ _ _ => isWithinOpenReach_of_forall hwf hfolders hopen⟩
  refine ⟨hwf, hfolders, listed, hlisted, hlists, (hlists.mem_iff _).mpr ⟨by decide +kernel,
    by decide +kernel, "tests/deep", by decide +kernel, ["unit"], ?_, by decide, by decide +kernel⟩⟩
  exact ⟨by decide +kernel, by decide +kernel, by decide, "b_test.go", by decide, by decide +kernel⟩

def emptyRepository (folder : String) : Repository where
  machine := .usual
  disk := .folder [("p", .folder [])]
  root := ⟨.root, ["p"]⟩
  settings := { tests := { testDirs := [LooseText.ofString folder] } }

theorem emptyRepository_wellFormed (folder : String) :
    (emptyRepository folder).disk.WellFormed := by
  refine .folder (by decide) (by decide) ?_
  simpa [emptyRepository] using
    Tree.WellFormed.folder (by decide) (by decide) (List.forall_mem_nil _)

theorem folders_emptyRepository (folder : String) :
    (emptyRepository folder).settings.tests.folders = [folder] := by
  rw [TestSettings.folders, emptyRepository]
  simp only [List.filterMap_cons, List.filterMap_nil, LooseText.toString?_ofString]

theorem refuses_emptyRepository {folder : String} (hpart : IsPart folder)
    (hnull : '\x00' ∉ folder.toList) (hlong : Tree.nameLimit < folder.utf8ByteSize) :
    (emptyRepository folder).disk.refuses ((emptyRepository folder).root.child folder) = true := by
  have hfault := lookFault?_of_long (r := emptyRepository folder) rfl rfl hpart hnull hlong
  rw [lookFault?, Source.lookFault?] at hfault
  by_contra hlooked
  exact hfault (if_neg hlooked)

theorem not_listsTests_overlongName : (emptyRepository overlongName).disk.WellFormed ∧
    (emptyRepository overlongName).settings.tests.folders = [overlongName] ∧
    (ofString overlongName).isAbsolute = false ∧
    ¬ ∃ listed, (emptyRepository overlongName).listTestFolders = .ok listed ∧
      (emptyRepository overlongName).ListsTests listed := by
  obtain ⟨hno, -, hpart⟩ := overlongName_spec
  have hfolders := folders_emptyRepository overlongName
  have hlong : Tree.nameLimit < overlongName.utf8ByteSize := by decide +kernel
  refine ⟨emptyRepository_wellFormed _, hfolders, ?_, ?_⟩
  · rw [ofString_of_isPart hpart]
    rfl
  · intro hlists
    obtain ⟨listed, hlisted, -⟩ := hlists
    have hrelative : ∀ folder ∈ (emptyRepository overlongName).settings.tests.folders,
        (ofString folder).isAbsolute = false := by
      rw [hfolders, List.forall_mem_singleton, ofString_of_isPart hpart]
      rfl
    have hlooked := ((listTestFolders_eq_ok hrelative).mp hlisted).1 overlongName
      (by rw [hfolders]; exact List.mem_singleton_self _)
    rw [refuses_emptyRepository hpart (hno '\x00' (by decide)) hlong] at hlooked
    cases hlooked

end Repository

end ChangeImpact
