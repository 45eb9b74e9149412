import ChangeImpact.Proofs.Report.Grown

/-!
# Reading a tree of paths

A reader of drawn trees takes the margin and the mark off each line, counts them, and keeps the
folders above the line it stands at. From the tree of some paths it reads the paths, each once and in
increasing order.
-/

namespace ChangeImpact.Report

open PathTree Text

def placeOf : List Char → Nat × List Char
  | '│' :: ' ' :: ' ' :: ' ' :: r => ((placeOf r).1 + 1, (placeOf r).2)
  | ' ' :: ' ' :: ' ' :: ' ' :: r => ((placeOf r).1 + 1, (placeOf r).2)
  | '├' :: '─' :: '─' :: ' ' :: r => (1, r)
  | '└' :: '─' :: '─' :: ' ' :: r => (1, r)
  | s => (0, s)

def readLines (folders : List String) : List String → List String
  | [] => []
  | line :: r =>
    let (depth, entry) := placeOf line.toList
    let above := folders.take depth
    if entry.getLast? == some '/' then readLines (above ++ [String.ofList entry.dropLast]) r
    else Path.ofParts (above ++ [String.ofList entry]) :: readLines above r

def readTree (lines : List String) : List String := readLines [] lines

def isMarked (s : List Char) : Bool :=
  ["│   ", "    ", "├── ", "└── "].any fun mark => mark.toList.isPrefixOf s

def IsDrawn (name : String) : Prop := '/' ∉ name.toList ∧ isMarked name.toList = false

theorem placeOf_of_not_isMarked {s : List Char} (h : isMarked s = false) : placeOf s = (0, s) := by
  unfold placeOf
  split
  · simp [isMarked] at h
  · simp [isMarked] at h
  · simp [isMarked] at h
  · simp [isMarked] at h
  · rfl

theorem isMarked_concat_slash {s : List Char} (h : isMarked s = false) :
    isMarked (s ++ ['/']) = false := by
  have hslash : ∀ mark ∈ ["│   ", "    ", "├── ", "└── "], '/' ∉ mark.toList := by decide
  simp only [isMarked, List.any_eq_false, List.isPrefixOf_iff_prefix] at h ⊢
  intro mark hmark hprefix
  rcases List.prefix_concat_iff.mp hprefix with heq | hs
  · refine hslash mark hmark ?_
    rw [heq]
    exact List.mem_concat_self
  · exact h mark hmark hs

inductive Margin : String → Nat → Prop where
  | none : Margin "" 0
  | deeper {margin : String} {depth : Nat} (h : Margin margin depth) (isLast : Bool) :
      Margin (margin ++ (branch false isLast).2) (depth + 1)

theorem placeOf_margin {margin : String} {depth : Nat} (h : Margin margin depth) (s : List Char) :
    placeOf (margin.toList ++ s) = ((placeOf s).1 + depth, (placeOf s).2) := by
  induction h generalizing s with
  | none => rfl
  | deeper _ isLast ih =>
    rw [String.toList_append, List.append_assoc, ih]
    cases isLast <;> simp [branch, placeOf] <;> omega

inductive DrawnAt : Bool → String → Nat → Prop where
  | root : DrawnAt true "" 0
  | below {margin : String} {depth : Nat} (h : Margin margin depth) :
      DrawnAt false margin (depth + 1)

section Lines

variable {isRoot : Bool} {margin : String} {depth : Nat}

theorem DrawnAt.child (h : DrawnAt isRoot margin depth) (isLast : Bool) :
    DrawnAt false (if isRoot then "" else margin ++ (branch isRoot isLast).2) (depth + 1) := by
  cases h with
  | root => exact .below .none
  | below hmargin => exact .below (hmargin.deeper isLast)

theorem placeOf_line (h : DrawnAt isRoot margin depth) (isLast : Bool) {s : List Char}
    (hs : isMarked s = false) :
    placeOf ((margin ++ (branch isRoot isLast).1).toList ++ s) = (depth, s) := by
  cases h with
  | root => exact placeOf_of_not_isMarked hs
  | @below _ depth hmargin =>
    have hmark : placeOf ((branch false isLast).1.toList ++ s) = (1, s) := by
      cases isLast <;> rfl
    rw [String.toList_append, List.append_assoc, placeOf_margin hmargin, hmark, Nat.add_comm]

variable {folder above : List String} {line name : String}

theorem placeOf_file (h : DrawnAt isRoot margin depth) (isLast : Bool) (hname : IsDrawn name) :
    placeOf (margin ++ (branch isRoot isLast).1 ++ name).toList = (depth, name.toList) := by
  rw [String.toList_append, placeOf_line h isLast hname.2]

theorem placeOf_folder (h : DrawnAt isRoot margin depth) (isLast : Bool) (hname : IsDrawn name) :
    placeOf (margin ++ (branch isRoot isLast).1 ++ name ++ "/").toList =
      (depth, name.toList ++ ['/']) := by
  rw [String.toList_append, String.toList_append, List.append_assoc]
  exact placeOf_line h isLast (isMarked_concat_slash hname.2)

theorem readLines_file (habove : folder <+: above) (hname : IsDrawn name)
    (hline : placeOf line.toList = (folder.length, name.toList)) (r : List String) :
    readLines above (line :: r) = Path.ofParts (folder ++ [name]) :: readLines folder r := by
  have hfile : (name.toList.getLast? == some '/') = false := by
    rw [beq_eq_false_iff_ne]
    exact fun hlast => hname.1 (List.mem_of_getLast? hlast)
  rw [readLines, hline]
  simp only [hfile, Bool.false_eq_true, if_false, ← List.prefix_iff_eq_take.mp habove,
    String.ofList_toList]

theorem readLines_folder (habove : folder <+: above)
    (hline : placeOf line.toList = (folder.length, name.toList ++ ['/'])) (r : List String) :
    readLines above (line :: r) = readLines (folder ++ [name]) r := by
  rw [readLines, hline]
  simp only [List.getLast?_concat, beq_self_eq_true, if_true, List.dropLast_concat,
    ← List.prefix_iff_eq_take.mp habove, String.ofList_toList]

end Lines

/-- What is read from a drawn tree are its leaves, and behind it the reader is where it was. -/
theorem readLines_draw {t : PathTree} (h : Named IsDrawn t) {isRoot : Bool} {margin : String}
    {folder above : List String} (hdrawn : DrawnAt isRoot margin folder.length)
    (habove : folder <+: above) (rest : List String) : ∃ above', folder <+: above' ∧
      readLines above (draw isRoot margin t ++ rest) =
        (leavesBelow t.entries).map (fun p => Path.ofParts (folder ++ p)) ++
          readLines above' rest := by
  induction h generalizing isRoot margin folder above rest with
  | @node es hnodup hnames hbelow ih =>
    -- The entries of one folder are drawn one by one, each with what is below it.
    rw [draw, entries]
    clear hnodup hbelow
    induction es generalizing above with
    | nil => exact ⟨above, habove, rfl⟩
    | cons e r ihr =>
      obtain ⟨name, u⟩ := e
      obtain ⟨hname, hr⟩ := List.forall_mem_cons.mp hnames
      obtain ⟨hu, hih⟩ := List.forall_mem_cons.mp ih
      rw [drawEntries, leavesBelow, List.append_assoc, List.map_append]
      by_cases hempty : u.entries.isEmpty
      · obtain ⟨above', habove', hrest⟩ := ihr hr hih List.prefix_rfl
        have hline := placeOf_file hdrawn r.isEmpty hname
        refine ⟨above', habove', ?_⟩
        rw [if_pos hempty, List.singleton_append, readLines_file habove hname hline, hrest,
          leaves_of_isEmpty hempty]
        rfl
      · have hline := placeOf_folder hdrawn r.isEmpty hname
        have hchild := hdrawn.child r.isEmpty
        have hlength : folder.length + 1 = (folder ++ [name]).length := by simp
        rw [hlength] at hchild
        obtain ⟨inside, hinside, hbelow⟩ :=
          hu hchild List.prefix_rfl (drawEntries isRoot margin r ++ rest)
        obtain ⟨above', habove', hrest⟩ :=
          ihr hr hih ((List.prefix_append folder [name]).trans hinside)
        refine ⟨above', habove', ?_⟩
        rw [if_neg hempty, List.cons_append, readLines_folder habove hline, hbelow, hrest,
          leaves_of_not_isEmpty hempty]
        simp only [List.map_map, Function.comp_def, List.append_assoc, List.singleton_append]

theorem ofParts_fields {p : String} : Path.ofParts (fields '/' p) = p := by
  apply String.toList_injective
  rw [Path.toList_ofParts (Path.fields_ne_nil '/' p), intercalate_fields]

section Trees

variable {paths : List String}

theorem readTree_fileTree
    (hnames : ∀ p ∈ paths, ∀ name ∈ fields '/' p, isMarked name.toList = false)
    (hapart : ∀ p ∈ paths, ∀ q ∈ paths, ¬ Path.IsFolderOf p q) :
    readTree (fileTree paths) = (Source.sorted paths).eraseDups := by
  have hnamed : Named IsDrawn (pathTree paths) := named_pathTree fun p hp name hname =>
    ⟨Path.slashless_of_mem_fields hname, hnames p hp name hname⟩
  have hdrawn : DrawnAt true "" ([] : List String).length := .root
  obtain ⟨_, -, hread⟩ := readLines_draw hnamed hdrawn List.prefix_rfl []
  rw [List.append_nil, leavesBelow_pathTree hapart, readLines, List.append_nil,
    List.map_map] at hread
  rw [readTree, fileTree, hread]
  exact List.map_id'' (fun _ => ofParts_fields) _

end Trees

def severalPaths : List String := ["s/b.js", "s-a.js", "s/a/c.js", "sa.js", "s/b.js"]

example : readTree ["s-a.js", "s/", "├── a/", "│   └── c.js", "└── b.js", "sa.js"] =
    ["s-a.js", "s/a/c.js", "s/b.js", "sa.js"] := by decide +kernel

end ChangeImpact.Report
