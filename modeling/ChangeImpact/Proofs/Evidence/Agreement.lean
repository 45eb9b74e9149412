import ChangeImpact.Proofs.Evidence.Relation
import ChangeImpact.Proofs.Graph.Built

/-!
# Evidence and the graph

The strong evidence of a test comes from its own imports, looked up on the disk; the graph holds
the same imports, looked up among the collected files. The two agree on every file that lies below
no ignored folder, up to one point: a disk refuses to look up a name that is too long, and then no
evidence is given at all.
-/

namespace ChangeImpact.Repository

open Evidence

def classify (r : Repository) (test : String) (changed : List String) :
    Except DiskFault (Option RelatedTest) :=
  ifNoFault (r.testFault? test) (r.testEvidence test changed)

def HasHighEvidence (r : Repository) (changed : List String) (test path : String) : Prop :=
  ∃ found, r.classify test changed = .ok (some found) ∧ (path, .high) ∈ found.evidence

section

variable {r : Repository} {changed : List String} {test path : String}

@[simp] theorem resolver_isFile (r : Repository) : r.resolver.isFile = r.isFile := rfl

@[simp] theorem resolver_verify (r : Repository) :
    r.resolver.verify = r.settings.indexer.verifyImports := rfl

theorem evidenceFor_eq_high {text : String} {imported : List String} :
    r.evidenceFor test text imported path = some .high ↔ path ≠ test ∧ path ∈ imported := by
  unfold evidenceFor
  split
  next h => simp_all
  next h =>
    split
    next hi => simp_all
    next hi =>
      have hno : path ∉ imported := by simpa using hi
      simp only [hno, and_false, iff_false]
      split
      · simp
      · split <;> simp

theorem evidenceOf_eq_high : r.evidenceOf test path = some .high ↔ path ≠ test ∧
    ∃ specifier ∈ r.importedBy test, r.resolver.resolve? specifier test = some path := by
  rw [evidenceOf, evidenceFor_eq_high, List.mem_filterMap]

theorem testEvidence_high {found : RelatedTest} (h : r.testEvidence test changed = some found) :
    (path, .high) ∈ found.evidence ↔ path ∈ changed ∧ path ≠ test ∧
      ∃ specifier ∈ r.importedBy test, r.resolver.resolve? specifier test = some path := by
  obtain ⟨-, rfl⟩ := testEvidence_eq_some.mp h
  rw [scored, mem_evidenceAmong, evidenceOf_eq_high]

theorem exists_testEvidence (hmem : path ∈ changed) (hne : path ≠ test)
    (himp : ∃ specifier ∈ r.importedBy test, r.resolver.resolve? specifier test = some path) :
    ∃ found, r.testEvidence test changed = some found := by
  have hevidence : (path, .high) ∈ r.evidenceAmong test changed :=
    mem_evidenceAmong.mpr ⟨hmem, evidenceOf_eq_high.mpr ⟨hne, himp⟩⟩
  exact ⟨_, testEvidence_eq_some.mpr ⟨List.ne_nil_of_mem hevidence, rfl⟩⟩

/-- Strong evidence is an import of the changed file, in a test that can be read and whose imports
can all be looked up. -/
theorem hasHighEvidence_iff : r.HasHighEvidence changed test path ↔
    r.testFault? test = none ∧ path ∈ changed ∧ path ≠ test ∧
      ∃ specifier ∈ r.importedBy test, r.resolver.resolve? specifier test = some path := by
  simp only [HasHighEvidence, classify, ifNoFault_eq_ok]
  constructor
  · intro h
    obtain ⟨found, ⟨hfault, hfound⟩, hmem⟩ := h
    exact ⟨hfault, (testEvidence_high hfound).mp hmem⟩
  · intro h
    obtain ⟨hfault, hmem, hne, himp⟩ := h
    obtain ⟨found, hfound⟩ := exists_testEvidence hmem hne himp
    exact ⟨found, ⟨hfault, hfound⟩, (testEvidence_high hfound).mpr ⟨hmem, hne, himp⟩⟩

theorem resolveFault?_eq_none {specifier : String} : r.resolveFault? specifier test = none ↔
    ∀ file ∈ r.resolver.passedOver specifier test, r.disk.refuses (r.root.child file) = false := by
  rw [resolveFault?, List.findSome?_eq_none_iff]
  refine forall₂_congr fun file _ => ?_
  rw [lookFault?, Source.lookFault?]
  simp

theorem mem_dependentsOf_iff
    (htest : test ∈ Build.filesOf r.settings.indexer r.disk r.root) :
    test ∈ (Build.run r.settings.indexer r.disk r.root).graph.dependentsOf path ↔
      (Language.ofPath? test).isSome ∧ path ≠ test ∧ ∃ specifier ∈ r.importedBy test,
        (Build.resolver r.settings.indexer r.disk r.root).resolve? specifier test = some path := by
  rw [Build.mem_dependentsOf_run, Build.Importing, Build.sourcesOf, List.mem_filter, ne_comm,
    and_iff_right htest, and_left_comm]
  rfl

/-- An import of a file below no ignored folder leads to it on the disk as in the graph. -/
theorem resolve?_filesOf_iff {specifier : String} (hwf : r.disk.WellFormed)
    (htest : test ∈ Build.filesOf r.settings.indexer r.disk r.root)
    (hlooked : r.resolveFault? specifier test = none)
    (hpath : Imports.Resolver.isKept r.settings.indexer.ignored path) :
    (Build.resolver r.settings.indexer r.disk r.root).resolve? specifier test = some path ↔
      r.resolver.resolve? specifier test = some path := by
  obtain ⟨parts, rfl, -, hname, -⟩ := (Build.mem_filesOf hwf).mp htest
  exact Build.resolve?_filesOf hwf (Path.head_ofParts fun p hp => (hname p hp).1)
    (resolveFault?_eq_none.mp hlooked) hpath

theorem mem_dependentsOf_iff_resolve? (hwf : r.disk.WellFormed)
    (htest : test ∈ Build.filesOf r.settings.indexer r.disk r.root)
    (hlooked : ∀ specifier ∈ r.importedBy test, r.resolveFault? specifier test = none)
    (hpath : Imports.Resolver.isKept r.settings.indexer.ignored path) :
    test ∈ (Build.run r.settings.indexer r.disk r.root).graph.dependentsOf path ↔
      (Language.ofPath? test).isSome ∧ path ≠ test ∧
        ∃ specifier ∈ r.importedBy test, r.resolver.resolve? specifier test = some path := by
  rw [mem_dependentsOf_iff htest]
  refine and_congr_right fun _ => and_congr_right fun _ => exists_congr fun specifier => ?_
  exact and_congr_right fun hs => resolve?_filesOf_iff hwf htest (hlooked specifier hs) hpath

theorem isSome_ofPath? {specifier : String} (h : specifier ∈ r.importedBy test) :
    (Language.ofPath? test).isSome := by
  cases hl : Language.ofPath? test with
  | none => simp [importedBy, hl, Imports.ofText] at h
  | some l => rfl

theorem testFault?_eq_none {b : Build}
    (hb : Build.attempt r.machine r.settings.indexer r.disk r.root = .ok b)
    (htest : test ∈ Build.sourcesOf r.settings.indexer r.disk r.root) :
    r.testFault? test = none ↔
      ∀ specifier ∈ r.importedBy test, r.resolveFault? specifier test = none := by
  -- What a build has read can be read again.
  have hread : Source.readFault? r.machine r.disk r.root r.settings.indexer.maxFileBytes test =
      none := by
    have hfault := (ifNoFault_eq_ok.mp hb).1
    rw [Build.fault?, List.findSome?_eq_none_iff] at hfault
    exact hfault (test, Source.read? r.disk r.root r.settings.indexer.maxFileBytes test)
      (List.mem_map.mpr ⟨test, htest, rfl⟩)
  rw [testFault?, hread, Option.none_or, List.findSome?_eq_none_iff]

theorem resolveFault?_beside {name : String} (hverify : r.settings.indexer.verifyImports = true)
    (hname : Path.IsPart name) (hup : name ≠ "..") (hquery : '?' ∉ name.toList)
    (htest : '/' ∉ test.toList) (hfile : r.isFile name = false)
    (hfault : r.lookFault? name ≠ none) : r.resolveFault? ("./" ++ name) test ≠ none := by
  obtain ⟨rest, hcandidates⟩ :=
    Imports.Resolver.exists_candidates_beside hname hup hquery htest
  have hrelative : Imports.isRelative ("./" ++ name) = true := by
    simp [Imports.isRelative, String.toList_append]
  have hmem : name ∈ r.resolver.passedOver ("./" ++ name) test := by
    rw [Imports.Resolver.passedOver, hrelative, resolver_verify, hverify, hcandidates]
    simp [hfile]
  rw [resolveFault?, ne_eq, List.findSome?_eq_none_iff]
  exact fun hnone => hfault (hnone _ hmem)

end

/-- A test has strong evidence for a file just when the graph holds its import of the file and no
name that its imports ask for is refused. -/
theorem hasHighEvidence_iff_mem_dependentsOf (r : Repository) (b : Build)
    (hwf : r.disk.WellFormed)
    (hb : Build.attempt r.machine r.settings.indexer r.disk r.root = .ok b)
    (changed : List String) (test path : String) (hmem : path ∈ changed)
    (htest : test ∈ Build.filesOf r.settings.indexer r.disk r.root)
    (hpath : Imports.Resolver.isKept r.settings.indexer.ignored path) :
    r.HasHighEvidence changed test path ↔ test ∈ b.graph.dependentsOf path ∧
      ∀ specifier ∈ r.importedBy test, r.resolveFault? specifier test = none := by
  obtain rfl := Build.attempt_eq_ok hb
  rw [hasHighEvidence_iff]
  constructor
  · intro h
    obtain ⟨hfault, -, hne, specifier, hs, hr⟩ := h
    have hsource := isSome_ofPath? hs
    rw [testFault?_eq_none hb (List.mem_filter.mpr ⟨htest, hsource⟩)] at hfault
    exact ⟨(mem_dependentsOf_iff_resolve? hwf htest hfault hpath).mpr
      ⟨hsource, hne, specifier, hs, hr⟩, hfault⟩
  · intro h
    obtain ⟨hdependent, hfault⟩ := h
    obtain ⟨hsource, hne, himp⟩ :=
      (mem_dependentsOf_iff_resolve? hwf htest hfault hpath).mp hdependent
    rw [testFault?_eq_none hb (List.mem_filter.mpr ⟨htest, hsource⟩)]
    exact ⟨hfault, hmem, hne, himp⟩

def scriptAndTest (text : List Char) : Repository :=
  { machine := .usual
    disk := .folder [("p", .folder
      [("f.js", .file []), ("t.test.js", .file (text.map Char.toUInt8))])]
    root := ⟨.root, ["p"]⟩
    settings := {} }

theorem scriptAndTest_wellFormed (text : List Char) : (scriptAndTest text).disk.WellFormed := by
  have hp : Tree.IsName "p" := by decide
  have hf : Tree.IsName "f.js" := by decide
  have ht : Tree.IsName "t.test.js" := by decide
  refine .folder (by simpa using hp) (by simp) ?_
  rw [List.forall_mem_singleton]
  refine .folder (by simpa using ⟨hf, ht⟩) (by simp) ?_
  simpa using ⟨Tree.WellFormed.file _, Tree.WellFormed.file _⟩

theorem at?_scriptAndTest (text : List Char) : (scriptAndTest text).disk.at?
    ((scriptAndTest text).root.child (Path.ofParts ["t.test.js"])) =
      some (.file (text.map Char.toUInt8)) := by
  rw [Tree.at?_child (by decide) (by decide)]
  simp [scriptAndTest, Tree.at?, Tree.follow, Tree.find, List.lookup_cons]

theorem mem_filesOf_scriptAndTest (text : List Char) : "t.test.js" ∈
    Build.filesOf {} (scriptAndTest text).disk (scriptAndTest text).root := by
  have hfile : (scriptAndTest text).disk.isFileAt
      ((scriptAndTest text).root.child (Path.ofParts ["t.test.js"])) := by
    rw [Tree.isFileAt, at?_scriptAndTest]
    rfl
  have hopen : Source.opensTo
      (Source.shutBelow (scriptAndTest text).disk (scriptAndTest text).root) ["t.test.js"] = true :=
    rfl
  exact (Build.mem_filesOf (scriptAndTest_wellFormed text)).mpr
    ⟨["t.test.js"], rfl, by decide, by decide, hfile, by decide +kernel, hopen⟩

theorem textOf_scriptAndTest (text : List Char) :
    (scriptAndTest text).textOf "t.test.js" = Source.decode 100000 (text.map Char.toUInt8) := by
  have hopen : (scriptAndTest text).disk.refuses
      ((scriptAndTest text).root.child (Path.ofParts ["t.test.js"])) = false := rfl
  have hread : Source.read? (scriptAndTest text).disk (scriptAndTest text).root 100000
      (Path.ofParts ["t.test.js"]) = _ := Source.read?_file (at?_scriptAndTest text) hopen
  exact congrArg (·.getD "") hread

theorem hasHighEvidence_script :
    (scriptAndTest "import './f'".toList).HasHighEvidence ["f.js"] "t.test.js" "f.js" := by
  have hwf := scriptAndTest_wellFormed "import './f'".toList
  have htest := mem_filesOf_scriptAndTest "import './f'".toList
  have hlooked : ∀ specifier ∈ (scriptAndTest "import './f'".toList).importedBy "t.test.js",
      (scriptAndTest "import './f'".toList).resolveFault? specifier "t.test.js" = none := by
    decide +kernel
  refine (hasHighEvidence_iff_mem_dependentsOf _ _ hwf (Build.attempt_of_sizeFault?_eq_none hwf
    (by decide)) ["f.js"] "t.test.js" "f.js" (by decide) htest (by decide +kernel)).mpr
    ⟨(mem_dependentsOf_iff_resolve? hwf htest hlooked (by decide +kernel)).mpr ?_, hlooked⟩
  decide +kernel

def overlong : List Char := List.replicate 300 'x'

def overlongName : String := String.ofList overlong

def overlongImport : List Char := "import './".toList ++ overlong ++ "'; import './f'".toList

theorem importedBy_overlongImport :
    (scriptAndTest overlongImport).importedBy "t.test.js" = ["./" ++ overlongName, "./f"] := by
  have htext : Source.decode 100000 (overlongImport.map Char.toUInt8) =
      String.ofList overlongImport := by
    rw [Source.decode, if_neg (by decide)]
    exact congrArg String.ofList (by decide +kernel)
  have hfound : Imports.EcmaScript.forms.flatMap (fun f => Imports.findAll f overlongImport) =
      [(0, "./".toList ++ overlong), (313, "./f".toList)] := by decide +kernel
  have hlanguage : Language.ofPath? "t.test.js" = some .ecmascript := by decide +kernel
  rw [importedBy, textOf_scriptAndTest, htext, hlanguage]
  simp only [Imports.ofText, Imports.specifiers, String.toList_ofList,
    Imports.EcmaScript.specifiers, hfound, Imports.inOrder]
  rw [List.mergeSort_of_pairwise (by decide)]
  simp only [List.map_cons, List.map_nil, String.ofList_append, String.ofList_toList, overlongName]

theorem overlongName_spec : (∀ c, c ≠ 'x' → c ∉ overlongName.toList) ∧
    (∀ t : String, t.toList.length < 300 → overlongName ≠ t) ∧ Path.IsPart overlongName := by
  have hchars : overlongName.toList = overlong := String.toList_ofList
  have hno : ∀ c, c ≠ 'x' → c ∉ overlongName.toList := by
    intro c hc hmem
    rw [hchars] at hmem
    exact hc (List.eq_of_mem_replicate hmem)
  have hne : ∀ t : String, t.toList.length < 300 → overlongName ≠ t := by
    intro t hlen heq
    obtain rfl := heq
    rw [hchars, overlong, List.length_replicate] at hlen
    exact Nat.lt_irrefl _ hlen
  exact ⟨hno, hne, hne _ (by decide), hne _ (by decide), hno '/' (by decide)⟩

theorem child_of_isPart {name : String} (hpart : Path.IsPart name) :
    (⟨.root, ["p"]⟩ : Path).child name = ⟨.root, ["p", name]⟩ := by
  rw [Path.child, Path.ofString_of_isPart hpart]
  rfl

theorem lookFault?_of_long {r : Repository} {entries : List (String × Tree)} {name : String}
    (hdisk : r.disk = .folder [("p", .folder entries)]) (hroot : r.root = ⟨.root, ["p"]⟩)
    (hpart : Path.IsPart name) (hnull : '\x00' ∉ name.toList)
    (hlong : Tree.nameLimit < name.utf8ByteSize) : r.lookFault? name ≠ none := by
  have hup : (name == "..") = false := by
    rw [beq_eq_false_iff_ne]
    rintro rfl
    exact absurd hlong (by decide)
  rw [lookFault?, Source.lookFault?, hroot, child_of_isPart hpart, hdisk]
  simp [Tree.refuses, Path.holdsNull, Tree.asksOverlongName, hlong, hup, hnull]

theorem refuses_overlongName (text : List Char) :
    (scriptAndTest text).isFile overlongName = false ∧
      (scriptAndTest text).lookFault? overlongName ≠ none := by
  obtain ⟨hno, hne, hpart⟩ := overlongName_spec
  have hscript := beq_eq_false_iff_ne.mpr (hne "f.js" (by decide))
  have htest := beq_eq_false_iff_ne.mpr (hne "t.test.js" (by decide))
  have hup := beq_eq_false_iff_ne.mpr (hne ".." (by decide))
  have hlong : Tree.nameLimit < overlongName.utf8ByteSize := by decide +kernel
  refine ⟨?_, lookFault?_of_long rfl rfl hpart (hno '\x00' (by decide)) hlong⟩
  have hchild : (scriptAndTest text).root.child overlongName = ⟨.root, ["p", overlongName]⟩ :=
    child_of_isPart hpart
  rw [isFile, Source.isFileIn, hchild]
  simp [Tree.isFileAt, scriptAndTest, Tree.at?, Tree.follow, List.lookup_cons, hscript, htest, hup]

theorem overlongImport_loses_evidence : ∃ b,
    Build.attempt .usual {} (scriptAndTest overlongImport).disk (scriptAndTest overlongImport).root =
      .ok b ∧
    "t.test.js" ∈ b.graph.dependentsOf "f.js" ∧
    ¬ (scriptAndTest overlongImport).HasHighEvidence ["f.js"] "t.test.js" "f.js" := by
  have hwf := scriptAndTest_wellFormed overlongImport
  have htest := mem_filesOf_scriptAndTest overlongImport
  have himports := importedBy_overlongImport
  obtain ⟨hno, hne, hpart⟩ := overlongName_spec
  obtain ⟨hfile, hrefused⟩ := refuses_overlongName overlongImport
  refine ⟨_, Build.attempt_of_sizeFault?_eq_none hwf (by decide), (mem_dependentsOf_iff htest).mpr
    ⟨by decide +kernel, by decide, "./f", by simp [himports], ?_⟩, ?_⟩
  · rw [resolve?_filesOf_iff hwf htest (by decide +kernel) (by decide +kernel)]
    decide +kernel
  rw [hasHighEvidence_iff, not_and']
  intro _ hfault
  rw [testFault?, Option.or_eq_none_iff, List.findSome?_eq_none_iff, himports] at hfault
  exact resolveFault?_beside rfl hpart (hne ".." (by decide)) (hno '?' (by decide)) (by decide)
    hfile hrefused (hfault.2 _ List.mem_cons_self)

end ChangeImpact.Repository
