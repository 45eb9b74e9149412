import ChangeImpact.Proofs.Graph.Built
import ChangeImpact.Proofs.Imports.Statement

/-!
# Names imported from the package of a file

The names behind `from . import` are modules beside the file or are defined by the initialiser
of the package. A build takes all of them for modules. So a name that no module has leads to the
initialiser only where another import of the same file does.
-/

namespace ChangeImpact.Build

open Imports Imports.Python

def initialiserOf (path : String) : String :=
  Path.ofParts (Resolver.folders path ++ ["__init__.py"])

def beside (name : List Char) : String := String.ofList ('.' :: name)

variable (settings : IndexSettings) (disk : Tree) (root : Path)

/-- The graph has an edge to the module of this name beside the file, or to the initialiser where
there is no such module. -/
def Followed (b : Build) (path : String) (name : List Char) : Prop :=
  match (resolver settings disk root).resolve? (beside name) path with
  | some target => path ∈ b.graph.dependentsOf target
  | none => path ∈ b.graph.dependentsOf (initialiserOf path)

variable {settings disk root}

theorem beside_mem_specifiersIn {path text : String} {above below : List Char} {s : Statement}
    (hlanguage : Language.ofPath? path = some .python)
    (hread : Source.read? disk root settings.maxFileBytes path = some text)
    (htext : text.toList = above ++ (s.text ++ below)) (hdot : s.module = ['.'])
    (hstart : atLineStart above.getLast? = true) (hend : ∀ c ∈ below.head?, c = '\n')
    (hstands : s.Stands above below) {n : Listed} (hn : n ∈ s.names) :
    beside n.name ∈ specifiersIn settings disk root path := by
  have hdots : ∀ c ∈ s.module, c = '.' := by simp [hdot]
  have hmem := s.name_mem_specifiers hdots hstart hend hstands hn
  rw [hdot, List.singleton_append, ← htext] at hmem
  rw [specifiersIn, hlanguage, hread]
  exact List.mem_map_of_mem hmem

/-- A name that `from . import` lists is followed if there is a module of this name beside the
file and the statement is read, and else only as far as the imports of the file lead there. -/
theorem followed_iff {m : Machine} {b : Build} (hb : attempt m settings disk root = .ok b)
    {path text : String}
    (hfile : path ∈ filesOf settings disk root)
    (hlanguage : Language.ofPath? path = some .python) (hpath : path ≠ initialiserOf path)
    (hread : Source.read? disk root settings.maxFileBytes path = some text)
    {above below : List Char} {s : Statement} (htext : text.toList = above ++ (s.text ++ below))
    (hdot : s.module = ['.']) (hstart : atLineStart above.getLast? = true)
    (hend : ∀ c ∈ below.head?, c = '\n') :
    ∀ n ∈ s.names, Followed settings disk root b path n.name ↔
      match (resolver settings disk root).resolve? (beside n.name) path with
      | some target => s.Stands above below ∨ Importing settings disk root path target
      | none => Importing settings disk root path (initialiserOf path) := by
  obtain rfl := attempt_eq_ok hb
  intro n hn
  have hsource : path ∈ sourcesOf settings disk root :=
    List.mem_filter.mpr ⟨hfile, by rw [hlanguage]; rfl⟩
  unfold Followed
  split
  next target htarget =>
    have hne := (Resolver.resolve?_spec htarget).2.2.1
    rw [mem_dependentsOf_run, and_iff_right (Ne.symm hne)]
    constructor
    · exact .inr
    · intro h
      rcases h with hstands | himporting
      · exact ⟨hsource, _, beside_mem_specifiersIn hlanguage hread htext hdot hstart hend hstands
          hn, htarget⟩
      · exact himporting
  next => rw [mem_dependentsOf_run, and_iff_right hpath]

def package : Tree :=
  .folder [("p", .folder [("pkg", .folder
    [("__init__.py", .file ("n = 1\n".toList.map Char.toUInt8)),
      ("a.py", .file ("from . import b, n\n".toList.map Char.toUInt8)),
      ("b.py", .file [])])])]

theorem package_wellFormed : package.WellFormed := by
  refine .folder (by decide) (by decide) ?_
  simp only [List.mem_singleton, forall_eq]
  refine .folder (by decide) (by decide) ?_
  simp only [List.mem_singleton, forall_eq]
  refine .folder (by decide) (by decide) ?_
  simp only [List.mem_cons, List.not_mem_nil, or_false, forall_eq_or_imp, forall_eq]
  exact ⟨.file _, .file _, .file _⟩

theorem mem_filesOf_package : ∀ path ∈ ["pkg/__init__.py", "pkg/a.py"],
    path ∈ filesOf {} package ⟨.root, ["p"]⟩ := by
  have hall : ∀ path ∈ ["pkg/__init__.py", "pkg/a.py"],
      Path.ofParts (Path.ofString path).parts = path ∧ (Path.ofString path).parts ≠ [] ∧
        (∀ p ∈ (Path.ofString path).parts, Tree.IsName p) ∧
        package.isFileAt (Path.child ⟨.root, ["p"]⟩ path) ∧
        Resolver.isKept ({} : IndexSettings).ignored path ∧
        Source.opensTo (Source.shutBelow package ⟨.root, ["p"]⟩) (Path.ofString path).parts := by
    decide +kernel
  intro path hpath
  exact (mem_filesOf package_wellFormed).mpr ⟨_, hall path hpath⟩

theorem read?_package : Source.read? package ⟨.root, ["p"]⟩ ({} : IndexSettings).maxFileBytes
    "pkg/a.py" = some "from . import b, n\n" := by decide +kernel

theorem eq_of_mem_specifiersIn_package {specifier : String}
    (h : specifier ∈ specifiersIn {} package ⟨.root, ["p"]⟩ "pkg/a.py") :
    specifier = beside ['b'] ∨ specifier = beside ['n'] := by
  have hmodules : findAll importStatement "from . import b, n\n".toList = [] := by
    decide +kernel
  have hnames : findAll fromStatement "from . import b, n\n".toList =
      [(0, ['.'], "b, n".toList)] := by decide +kernel
  have hreferred : referred ['.'] "b, n".toList = [['.', 'b'], ['.', 'n']] := by
    decide +kernel
  have hlanguage : Language.ofPath? "pkg/a.py" = some .python := by decide +kernel
  rw [specifiersIn, read?_package, hlanguage, Option.getD_some] at h
  obtain ⟨name, hname, rfl⟩ := List.mem_map.mp h
  rcases mem_specifiers.mp hname with ⟨find, hfind, -⟩ | ⟨find, hfind, hmem⟩
  · rw [hmodules] at hfind
    cases hfind
  · rw [hnames] at hfind
    obtain rfl := List.mem_singleton.mp hfind
    rw [hreferred, List.mem_cons, List.mem_singleton] at hmem
    rcases hmem with rfl | rfl
    · exact .inl rfl
    · exact .inr rfl

def oneBlank : Gap := ⟨[' '], List.forall_mem_singleton.mpr rfl, by decide⟩

theorem isPlain_singleton {c : Char} (hblank : Text.isBlank c = false)
    (hmark : c ∉ ['*', ',', '#', '(', ')']) : IsPlain [c] := by
  rw [List.mem_cons, not_or] at hmark
  refine ⟨by simp, by simpa using hmark.1, ?_, ?_⟩
  · exact List.forall_mem_singleton.mpr hblank
  · exact List.forall_mem_singleton.mpr hmark.2

def importOfBoth : Statement where
  margin := []
  toModule := oneBlank
  module := ['.']
  toImport := oneBlank
  toNames := oneBlank
  names :=
    [⟨[], ['b'], [], isPlain_singleton rfl (by decide), List.forall_mem_nil _⟩,
      ⟨[' '], ['n'], [], isPlain_singleton rfl (by decide),
        List.forall_mem_singleton.mpr ⟨rfl, by decide⟩⟩]
  comment := []
  isMargin := List.forall_mem_nil _
  module_ne_nil := by decide
  isPart := List.forall_mem_singleton.mpr rfl
  names_ne_nil := List.cons_ne_nil _ _
  isComment := fun _ h => nomatch h
  oneLine := by decide

theorem resolve?_package {name : List Char} (hname : name ∈ [['b'], ['n']]) {target : String}
    (htarget : Resolver.isKept ({} : IndexSettings).ignored target) :
    (resolver {} package ⟨.root, ["p"]⟩).resolve? (beside name) "pkg/a.py" = some target ↔
      Resolver.resolve? ⟨Source.isFileIn package ⟨.root, ["p"]⟩, true⟩ (beside name) "pkg/a.py" =
        some target := by
  have hlooked : ∀ name ∈ [['b'], ['n']], ∀ file ∈ Resolver.passedOver
      ⟨Source.isFileIn package ⟨.root, ["p"]⟩, true⟩ (beside name) "pkg/a.py",
      package.refuses (Path.child ⟨.root, ["p"]⟩ file) = false := by decide +kernel
  exact resolve?_filesOf package_wellFormed (by decide) (hlooked name hname) htarget

theorem resolve?_package_b :
    (resolver {} package ⟨.root, ["p"]⟩).resolve? (beside ['b']) "pkg/a.py" =
      some "pkg/b.py" := by
  rw [resolve?_package (by decide) (by decide +kernel)]
  decide +kernel

theorem resolve?_package_n :
    (resolver {} package ⟨.root, ["p"]⟩).resolve? (beside ['n']) "pkg/a.py" =
      none := by
  rw [Option.eq_none_iff_forall_ne_some]
  intro target htarget
  have hknown := (Resolver.resolve?_spec htarget).2.2.2 rfl
  obtain ⟨-, -, -, -, -, hkept, -⟩ :=
    (mem_filesOf package_wellFormed).mp (List.contains_iff_mem.mp hknown)
  rw [resolve?_package (by decide) hkept] at htarget
  have hnone : Resolver.resolve? ⟨Source.isFileIn package ⟨.root, ["p"]⟩, true⟩
      (beside ['n']) "pkg/a.py" = none := by decide +kernel
  rw [hnone] at htarget
  cases htarget

theorem not_importing_package :
    ¬ Importing {} package ⟨.root, ["p"]⟩ "pkg/a.py" "pkg/__init__.py" := by
  intro h
  obtain ⟨-, specifier, hspecifier, hresolved⟩ := h
  rcases eq_of_mem_specifiersIn_package hspecifier with rfl | rfl
  · exact absurd (resolve?_package_b.symm.trans hresolved) (by decide)
  · exact absurd (resolve?_package_n.symm.trans hresolved) (by decide)

theorem not_followed_name :
    ({} : IndexSettings).verifyImports = true ∧ ∃ b, attempt .usual {} package ⟨.root, ["p"]⟩ = .ok b ∧
      "pkg/a.py" ∈ filesOf {} package ⟨.root, ["p"]⟩ ∧
      "pkg/__init__.py" ∈ filesOf {} package ⟨.root, ["p"]⟩ ∧
      Source.read? package ⟨.root, ["p"]⟩ ({} : IndexSettings).maxFileBytes "pkg/a.py" =
        some "from . import b, n\n" ∧
      (resolver {} package ⟨.root, ["p"]⟩).resolve? ".n" "pkg/a.py" = none ∧
      "pkg/a.py" ∉ b.graph.dependentsOf "pkg/__init__.py" := by
  refine ⟨rfl, _, attempt_of_sizeFault?_eq_none package_wellFormed (by decide),
    mem_filesOf_package _ (by decide), mem_filesOf_package _ (by decide), read?_package,
    resolve?_package_n, fun h => ?_⟩
  exact not_importing_package (mem_dependentsOf_run.mp h).2

theorem followed_iff_package :
    ∃ b, attempt .usual {} package ⟨.root, ["p"]⟩ = .ok b ∧
      Followed {} package ⟨.root, ["p"]⟩ b "pkg/a.py" ['b'] ∧
      ¬ Followed {} package ⟨.root, ["p"]⟩ b "pkg/a.py" ['n'] := by
  have hb : attempt .usual {} package ⟨.root, ["p"]⟩ = .ok (run {} package ⟨.root, ["p"]⟩) :=
    attempt_of_sizeFault?_eq_none package_wellFormed (by decide)
  have htext : "from . import b, n\n".toList = [] ++ (importOfBoth.text ++ ['\n']) := by
    decide +kernel
  have hiff := followed_iff hb (mem_filesOf_package "pkg/a.py" (by decide)) (by decide +kernel)
    (by decide +kernel) read?_package htext rfl (by decide)
    fun c hc => (Option.some.inj hc).symm
  obtain ⟨hmodule, hname⟩ := List.forall_mem_cons.mp hiff
  obtain ⟨hdefined, -⟩ := List.forall_mem_cons.mp hname
  refine ⟨_, hb, hmodule.mpr ?_, fun h => ?_⟩
  · rw [resolve?_package_b]
    exact .inl (by decide +kernel)
  · have himporting := hdefined.mp h
    rw [resolve?_package_n] at himporting
    exact not_importing_package himporting

end ChangeImpact.Build
