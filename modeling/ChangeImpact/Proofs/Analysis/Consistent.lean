import ChangeImpact.Analysis.Run
import ChangeImpact.Proofs.Evidence.Consistent
import ChangeImpact.Proofs.Graph.Built
import ChangeImpact.Proofs.Graph.Lists
import ChangeImpact.Proofs.Risk.Assessed

/-!
# Reports whose parts agree

The graph, the search, the tests and the rules are asked one after the other about the same change
set. A report puts their answers together, and they speak of the same files: the changed ones in
one order, and beside them only files that were collected for the graph.
-/

namespace ChangeImpact

def Impact.dependents (i : Impact) : List String :=
  i.direct.flatMap (·.2) ++ i.indirect.flatMap (·.2)

structure Report.Agrees (collected : List String) (changes : ChangeSet) (report : Report) :
    Prop where
  changed_eq : report.impact.changed = (changes.files.map (·.path)).eraseDups
  affected_collected : ∀ path ∈ report.impact.allAffected,
    path ∉ report.impact.changed → path ∈ collected
  critical_nodup : report.risk.criticalFiles.Nodup
  critical_affected : report.risk.criticalFiles ⊆ report.impact.allAffected
  related_changed : ∀ t ∈ report.coverage.relatedTests, t.relatedFiles ⊆ report.impact.changed
  missing_changed : report.coverage.missingTests ⊆ report.impact.changed
  total_eq : (report.impact.totalAffected : Int) - report.impact.changed.length =
    (report.impact.dependents.toFinset \ report.impact.changed.toFinset).card

namespace ImportGraph

variable {g : ImportGraph} {levels : Nat} {changed : List String} {path : String}

theorem changed_or_dependent (h : path ∈ (g.affected levels changed).allAffected) :
    path ∈ changed ∨ ∃ target, path ∈ g.dependentsOf target := by
  obtain ⟨p, hp, n, -, hwalk⟩ := mem_allAffected_iff_walk.mp h
  cases hwalk with
  | here => exact .inl hp
  | first hpath => exact .inr ⟨p, hpath⟩
  | next _ _ hpath => exact .inr ⟨_, hpath⟩

theorem mem_allAffected_of_changed (h : path ∈ changed) :
    path ∈ (g.affected levels changed).allAffected :=
  mem_allAffected.mpr (.inl (mem_known.mpr (.inl h)))

theorem mem_allAffected_of_directOf {p : String} (hp : p ∈ changed)
    (h : path ∈ (g.affected levels changed).directOf p) :
    path ∈ (g.affected levels changed).allAffected := by
  rw [directOf_affected hp] at h
  exact mem_allAffected.mpr (.inl (mem_known.mpr (.inr ⟨p, hp, h⟩)))

theorem toFinset_allAffected : (g.affected levels changed).allAffected.toFinset =
    (g.affected levels changed).dependents.toFinset ∪
      (g.affected levels changed).changed.toFinset := by
  have hall : (g.affected levels changed).allAffected = ((g.affected levels changed).changed ++
      (g.affected levels changed).direct.flatMap (·.2) ++
      (g.affected levels changed).indirect.flatMap (·.2)).eraseDups := rfl
  rw [hall, Impact.dependents, Finset.union_comm, ← List.toFinset_append, ← List.append_assoc]
  ext x
  simp only [List.mem_toFinset, List.mem_eraseDups]

theorem totalAffected_sub_length : ((g.affected levels changed).totalAffected : Int) -
    (g.affected levels changed).changed.length =
      ((g.affected levels changed).dependents.toFinset \
        (g.affected levels changed).changed.toFinset).card := by
  have hall : (g.affected levels changed).totalAffected =
      (g.affected levels changed).allAffected.toFinset.card :=
    (List.toFinset_card_of_nodup (nodup_eraseDups _)).symm
  have hchanged : (g.affected levels changed).changed.length =
      (g.affected levels changed).changed.toFinset.card :=
    (List.toFinset_card_of_nodup (nodup_eraseDups _)).symm
  rw [hall, hchanged, toFinset_allAffected, ← Finset.card_sdiff_add_card]
  omega

theorem impactOf_eq_ok {depth : Int} {i : Impact} (h : g.impactOf depth changed = .ok i) :
    i = g.affected depth.toNat changed := by
  unfold impactOf at h
  split at h
  · cases h
  · exact (Except.ok.inj h).symm

end ImportGraph

namespace Repository

variable {r : Repository} {changes : ChangeSet} {diff : Option String} {report : Report}

theorem folderAt_eq_ok {disk : Tree} {p place : Path} {missing : Path → Failure}
    (h : folderAt disk p missing = .ok place) : place = p.resolve := by
  simp only [folderAt] at h
  split at h
  · cases h
  · split at h
    · cases h
    · split at h
      · exact (Except.ok.inj h).symm
      · cases h

def placed (r : Repository) : Repository := { r with root := r.root.resolve }

/-- An analysis comes to a report when each component has an answer. The rules are given the answers
of the others, and the report holds what each of them says. -/
theorem analyse_eq_ok : r.analyse changes diff = .ok report ↔
    folderAt r.disk r.root .unreachable = .ok r.root.resolve ∧
      changes.paths.find? leadsOutside = none ∧
      ∃ graph stats impact coverage table risk,
        r.placed.graphFor changes = .ok (graph, stats) ∧
        graph.impactOf r.settings.impact.maxDepth changes.paths = .ok impact ∧
        r.placed.findTests changes.paths = .ok coverage ∧
        r.placed.rules = .ok table ∧
        Risk.assess table { changes, impact, coverage := some coverage }
          (if r.settings.risk.scanDiff then diff else none) = .ok risk ∧
        { root := r.root.resolve.text, summary := .of changes, changes, impact, coverage, risk,
          indexStats := stats } = report := by
  constructor
  · intro h
    obtain ⟨place, hplace, h⟩ := bind_eq_ok.mp h
    obtain rfl := folderAt_eq_ok hplace
    split at h
    next => cases h
    next hinside =>
      obtain ⟨⟨graph, stats⟩, hgraph, h⟩ := bind_eq_ok.mp h
      obtain ⟨impact, himpact, h⟩ := bind_eq_ok.mp h
      obtain ⟨coverage, hcoverage, h⟩ := bind_eq_ok.mp h
      obtain ⟨table, htable, h⟩ := bind_eq_ok.mp h
      obtain ⟨risk, hrisk, h⟩ := bind_eq_ok.mp h
      exact ⟨hplace, hinside, graph, stats, impact, coverage, table, risk,
        mapError_eq_ok.mp hgraph, mapError_eq_ok.mp himpact, mapError_eq_ok.mp hcoverage,
        mapError_eq_ok.mp htable, mapError_eq_ok.mp hrisk, Except.ok.inj h⟩
  · intro h
    obtain ⟨hplace, hinside, graph, stats, impact, coverage, table, risk, hgraph, himpact,
      hcoverage, htable, hrisk, rfl⟩ := h
    rw [analyse, hplace]
    simp only [hinside]
    refine bind_eq_ok.mpr ⟨_, rfl, bind_eq_ok.mpr ⟨_, mapError_eq_ok.mpr hgraph, ?_⟩⟩
    refine bind_eq_ok.mpr ⟨_, mapError_eq_ok.mpr himpact, ?_⟩
    refine bind_eq_ok.mpr ⟨_, mapError_eq_ok.mpr hcoverage, ?_⟩
    refine bind_eq_ok.mpr ⟨_, mapError_eq_ok.mpr htable, ?_⟩
    exact bind_eq_ok.mpr ⟨_, mapError_eq_ok.mpr hrisk, rfl⟩

theorem mem_filesOf_of_graphFor {graph : ImportGraph} {stats : Json.Fields}
    (h : r.graphFor changes = .ok (graph, stats)) {path target : String}
    (hpath : path ∈ graph.dependentsOf target) :
    path ∈ Build.filesOf r.settings.indexer r.disk r.root := by
  unfold graphFor at h
  split at h
  next =>
    obtain ⟨rfl, -⟩ := Prod.mk.inj (Except.ok.inj h)
    cases hpath
  next =>
    obtain ⟨b, hb, heq⟩ := map_eq_ok.mp h
    obtain ⟨rfl, -⟩ := Prod.mk.inj heq
    obtain rfl := Build.attempt_eq_ok hb
    obtain ⟨-, hsource, -⟩ := Build.mem_dependentsOf_run.mp hpath
    exact List.mem_of_mem_filter hsource

theorem related_and_missing_changed {changed : List String} {c : Evidence.Coverage}
    (h : r.findTests changed = .ok c) :
    (∀ t ∈ c.relatedTests, t.relatedFiles ⊆ changed) ∧ c.missingTests ⊆ changed := by
  obtain ⟨-, rfl⟩ := ifNoFault_eq_ok.mp h
  by_cases hne : changed = []
  · subst hne
    simp [coverageOf]
  · rw [coverageOf_eq hne]
    constructor
    · intro t ht path hpath
      rw [(tells_of_mem_relatedTo ht).files_eq] at hpath
      exact List.mem_eraseDups.mp (List.mem_of_mem_filter hpath)
    · intro path hpath
      exact List.mem_eraseDups.mp (List.mem_of_mem_filter hpath)

/-- A report that an analysis comes to agrees with itself, with the change set and with the files
that are collected below the root. -/
theorem analyse_agrees (r : Repository) (changes : ChangeSet) (diff : Option String)
    (report : Report) (h : r.analyse changes diff = .ok report) :
    report.Agrees (Build.filesOf r.settings.indexer r.disk r.root.resolve) changes := by
  obtain ⟨-, -, graph, stats, impact, coverage, table, risk, hgraph, himpact, hcoverage, -, hrisk,
    rfl⟩ := analyse_eq_ok.mp h
  obtain ⟨hrelated, hmissing⟩ := related_and_missing_changed hcoverage
  obtain rfl := ImportGraph.impactOf_eq_ok himpact
  have hchanged : (graph.affected r.settings.impact.maxDepth.toNat changes.paths).changed =
      changes.paths := eraseDups_of_nodup (nodup_eraseDups _)
  exact
    { changed_eq := hchanged
      affected_collected := fun path hpath hnew => by
        rw [hchanged] at hnew
        obtain ⟨target, hdependent⟩ := (ImportGraph.changed_or_dependent hpath).resolve_left hnew
        exact mem_filesOf_of_graphFor hgraph hdependent
      critical_nodup := by
        rw [Risk.criticalFiles_assess hrisk]
        exact nodup_eraseDups _
      critical_affected := fun path hpath => by
        obtain ⟨rule, -, -, p, hp, -, hmarked⟩ := (Risk.mem_criticalFiles hrisk).mp hpath
        cases hmarked with
        | inl heq => exact heq ▸ ImportGraph.mem_allAffected_of_changed hp
        | inr hdirect => exact ImportGraph.mem_allAffected_of_directOf hp hdirect
      related_changed := fun t ht _ hpath => List.mem_eraseDups.mpr (hrelated t ht hpath)
      missing_changed := fun _ hpath => List.mem_eraseDups.mpr (hmissing hpath)
      total_eq := ImportGraph.totalAffected_sub_length }

def loginPage : Repository :=
  { machine := .usual
    disk := .folder [("p", .folder
      [("auth.go", .file []),
        ("page.go", .file ("import \"./auth\"".toList.map Char.toUInt8))])]
    root := ⟨.root, ["p"]⟩
    settings := {} }

def loginChanges : ChangeSet := .ofPaths ["auth.go", "auth.go"]

def loginGraph : ImportGraph := ⟨[⟨"page.go", ["auth.go"], []⟩, ⟨"auth.go", [], ["page.go"]⟩]⟩

def loginCoverage : Evidence.Coverage := { coveragePercent := 0, missingTests := ["auth.go"] }

theorem filesOf_loginPage :
    Build.filesOf {} loginPage.disk loginPage.root = ["auth.go", "page.go"] := by
  have hlisted : Build.filesOf {} loginPage.disk loginPage.root =
      Source.sorted ["auth.go", "page.go"] := by
    refine congrArg Source.sorted ?_
    decide +kernel
  rw [hlisted]
  exact List.mergeSort_of_pairwise (by decide)

theorem graphFor_loginPage : ∃ stats, loginPage.graphFor loginChanges = .ok (loginGraph, stats) := by
  have hread : Build.fault? .usual {} loginPage.disk loginPage.root = none := by
    rw [Build.fault?, filesOf_loginPage]
    decide +kernel
  have hgraph : (Build.run {} loginPage.disk loginPage.root).graph = loginGraph := by
    rw [Build.run, filesOf_loginPage]
    decide +kernel
  refine ⟨buildStats (Build.run {} loginPage.disk loginPage.root), ?_⟩
  rw [← hgraph]
  exact map_eq_ok.mpr ⟨_, ifNoFault_eq_ok.mpr ⟨hread, rfl⟩, rfl⟩

theorem analyse_agrees_loginPage : ∃ report, loginPage.analyse loginChanges none = .ok report ∧
    report.risk.criticalFiles = ["auth.go", "page.go"] ∧
    report.Agrees (Build.filesOf {} loginPage.disk loginPage.root.resolve) loginChanges := by
  have hroot : loginPage.root.resolve = loginPage.root := by decide +kernel
  have hplaced : loginPage.placed = loginPage := by rw [placed, hroot]
  have hpaths : loginChanges.paths = ["auth.go"] := by decide
  obtain ⟨stats, hgraph⟩ := graphFor_loginPage
  have hcoverage : loginPage.findTests ["auth.go"] = .ok loginCoverage := by decide +kernel
  have hassessed : (Risk.assess Risk.standardRules
      { changes := loginChanges, impact := loginGraph.affected 2 ["auth.go"],
        coverage := some loginCoverage } none).map (·.criticalFiles) =
      .ok ["auth.go", "page.go"] := by decide +kernel
  obtain ⟨risk, hrisk, hcritical⟩ := map_eq_ok.mp hassessed
  have hplace : folderAt loginPage.disk loginPage.root .unreachable =
      .ok loginPage.root.resolve := by decide +kernel
  have hinside : loginChanges.paths.find? leadsOutside = none := by decide +kernel
  have hreport := analyse_eq_ok.mpr ⟨hplace, hinside, loginGraph, stats,
    loginGraph.affected 2 loginChanges.paths, loginCoverage, Risk.standardRules, risk,
    by rw [hplaced, hgraph], rfl, by rw [hplaced, hpaths, hcoverage], rfl, hpaths ▸ hrisk, rfl⟩
  exact ⟨_, hreport, hcritical, analyse_agrees _ _ _ _ hreport⟩

end Repository

end ChangeImpact
