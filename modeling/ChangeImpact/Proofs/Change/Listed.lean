import ChangeImpact.Proofs.Analysis.Answers
import ChangeImpact.Proofs.Data.Entries
import ChangeImpact.Proofs.Data.Results
import ChangeImpact.Proofs.Path.Climbing
import ChangeImpact.Proofs.Text.Integer
import ChangeImpact.Proofs.Text.Strip

/-!
# Listed changes

The changes between two revisions are listed twice: once by path with the lines that were added
and removed, once by path with a letter. Every path ends with a NUL character and may hold any
other. The two lists are read back as one, unless a count has more digits than can be read.
-/

namespace ChangeImpact.Git

open Text

inductive Letter where
  | added
  | modified
  | deleted
  | retyped
  deriving Repr, DecidableEq

namespace Letter

def char : Letter → Char
  | added => 'A'
  | modified => 'M'
  | deleted => 'D'
  | retyped => 'T'

def status : Letter → ChangeStatus
  | added => .added
  | modified => .modified
  | deleted => .deleted
  | retyped => .modified

end Letter

structure ListedChange where
  path : List Char
  letter : Letter
  counts : Option (Nat × Nat)
  noNul : '\x00' ∉ path

namespace ListedChange

variable (c : ListedChange)

def file : ChangedFile :=
  match c.counts with
  | some (added, removed) =>
    { path := String.ofList c.path, additions := added, deletions := removed,
      status := c.letter.status }
  | none =>
    { path := String.ofList c.path
      status := if c.letter.status = .modified then .binary else c.letter.status }

def fields : List Char × List Char :=
  match c.counts with
  | some (added, removed) => (Decimal.digits added, Decimal.digits removed)
  | none => (['-'], ['-'])

def record : List Char := c.fields.1 ++ '\t' :: (c.fields.2 ++ '\t' :: c.path)

def IsReadable : Prop :=
  match c.counts with
  | some (added, removed) => Text.IsReadable added ∧ Text.IsReadable removed
  | none => True

end ListedChange

def numstat (cs : List ListedChange) : String :=
  String.ofList (cs.flatMap fun c => c.record ++ ['\x00'])

def nameStatus (cs : List ListedChange) : String :=
  String.ofList (cs.flatMap fun c => [c.letter.char, '\x00'] ++ c.path ++ ['\x00'])

theorem digits_plain {n : Nat} {c : Char} (h : c ∈ Decimal.digits n) :
    c ≠ '\t' ∧ c ≠ '\x00' ∧ c ≠ '-' := by
  have hall : ∀ d < 10, Nat.digitChar d ≠ '\t' ∧ Nat.digitChar d ≠ '\x00' ∧
      Nat.digitChar d ≠ '-' := by decide
  obtain ⟨d, hd, rfl⟩ := exists_digitChar n c h
  exact hall d hd

namespace ListedChange

variable (c : ListedChange)

theorem notMem_fields : ('\t' ∉ c.fields.1 ∧ '\x00' ∉ c.fields.1) ∧
    '\t' ∉ c.fields.2 ∧ '\x00' ∉ c.fields.2 := by
  unfold fields
  split
  · exact ⟨⟨fun h => (digits_plain h).1 rfl, fun h => (digits_plain h).2.1 rfl⟩,
      fun h => (digits_plain h).1 rfl, fun h => (digits_plain h).2.1 rfl⟩
  · decide

theorem notMem_record : '\x00' ∉ c.record := by
  obtain ⟨⟨-, h₁⟩, -, h₂⟩ := c.notMem_fields
  simp [record, h₁, h₂, c.noNul]

theorem record?_record : record? c.record = some (c.fields.1, c.fields.2, c.path) := by
  obtain ⟨⟨h₁, -⟩, h₂, -⟩ := c.notMem_fields
  simp [record?, record, cut?_append_cons h₁, cut?_append_cons h₂]

theorem statusOfLetter_char (l : Letter) : statusOfLetter [l.char] = l.status := by
  cases l <;> rfl

end ListedChange

theorem filterMap_record? (cs : List ListedChange) :
    (splitOn '\x00' (numstat cs).toList).filterMap record? =
      cs.map fun c => (c.fields.1, c.fields.2, c.path) := by
  rw [numstat, String.toList_ofList]
  induction cs with
  | nil => rfl
  | cons c cs ih =>
    rw [List.flatMap_cons, List.append_assoc, List.singleton_append,
      splitOn_append_cons c.notMem_record, List.filterMap_cons_some c.record?_record, ih,
      List.map_cons]

theorem statuses_nameStatus (cs : List ListedChange) :
    statuses (splitOn '\x00' (nameStatus cs).toList) =
      cs.map fun c => (String.ofList c.path, c.letter.status) := by
  rw [nameStatus, String.toList_ofList]
  induction cs with
  | nil => rfl
  | cons c cs ih =>
    have hletter : '\x00' ∉ [c.letter.char] := by cases c.letter <;> decide
    have hsplit := splitOn_append_cons hletter
      (c.path ++ '\x00' :: cs.flatMap fun c => [c.letter.char, '\x00'] ++ c.path ++ ['\x00'])
    rw [splitOn_append_cons c.noNul] at hsplit
    simp only [List.flatMap_cons, List.cons_append, List.nil_append, List.append_assoc]
      at hsplit ih ⊢
    rw [hsplit, statuses, ih, ListedChange.statusOfLetter_char, List.map_cons]

theorem lastStatus?_of_mem {cs : List ListedChange} (hnd : (cs.map (·.path)).Nodup)
    {c : ListedChange} (hc : c ∈ cs) :
    lastStatus? (cs.map fun c => (String.ofList c.path, c.letter.status)) (String.ofList c.path) =
      some c.letter.status := by
  rw [lastStatus?]
  refine lookup_of_mem ?_ (List.mem_reverse.mpr (List.mem_map_of_mem hc))
  rw [List.map_reverse, List.nodup_reverse, List.map_map]
  have hpaths : ((fun e : String × ChangeStatus => e.1) ∘
      fun c : ListedChange => (String.ofList c.path, c.letter.status)) =
        String.ofList ∘ ListedChange.path := rfl
  rw [hpaths, ← List.map_map]
  exact hnd.map fun _ _ => String.ofList_injective

theorem changedFile_fields {table : List (String × ChangeStatus)} {c : ListedChange}
    (h : lastStatus? table (String.ofList c.path) = some c.letter.status) {file : ChangedFile} :
    changedFile table c.fields.1 c.fields.2 c.path = .ok file ↔ c.IsReadable ∧ file = c.file := by
  obtain ⟨path, letter, counts, noNul⟩ := c
  cases counts with
  | none =>
    simp [changedFile, ListedChange.fields, ListedChange.IsReadable, ListedChange.file, h, eq_comm]
  | some counts =>
    obtain ⟨added, removed⟩ := counts
    have hdash (n : Nat) : Decimal.digits n ≠ ['-'] := fun heq => by
      have hmem : '-' ∈ Decimal.digits n := heq ▸ List.mem_singleton_self _
      exact (digits_plain hmem).2.2 rfl
    have hread (n : Nat) (i : Int) :
        readInteger (String.ofList (Decimal.digits n)) = .ok i ↔ Text.IsReadable n ∧ i = n := by
      have hnumber := readInteger_ofNat n
      rw [Decimal.ofNat] at hnumber
      rw [hnumber]
      by_cases hn : Text.IsReadable n
      · simp [hn, eq_comm]
      · simp [hn]
    have htext : (Decimal.digits added == ['-'] || Decimal.digits removed == ['-']) = false := by
      simp [hdash]
    simp only [changedFile, ListedChange.fields, htext, Bool.false_eq_true, if_false, bind_eq_ok,
      hread, h, Option.getD_some, pure, Except.pure, Except.ok.injEq, ListedChange.IsReadable,
      ListedChange.file]
    constructor
    · intro hsome
      obtain ⟨_, ⟨ha, rfl⟩, _, ⟨hr, rfl⟩, rfl⟩ := hsome
      exact ⟨⟨ha, hr⟩, rfl⟩
    · intro hboth
      obtain ⟨⟨ha, hr⟩, rfl⟩ := hboth
      exact ⟨_, ⟨ha, rfl⟩, _, ⟨hr, rfl⟩, rfl⟩

theorem path_of_changedFile {table : List (String × ChangeStatus)} {added deleted path : List Char}
    {file : ChangedFile} (h : changedFile table added deleted path = .ok file) :
    file.path = String.ofList path := by
  unfold changedFile at h
  dsimp only at h
  split at h
  · obtain rfl := Except.ok.inj h
    rfl
  · obtain ⟨_, -, h⟩ := bind_eq_ok.mp h
    obtain ⟨_, -, h⟩ := bind_eq_ok.mp h
    obtain rfl := Except.ok.inj h
    rfl

theorem paths_of_readChanges {cs : List ListedChange} {letters : String} {set : ChangeSet}
    (h : readChanges (numstat cs) letters = .ok set) :
    set.files.map (·.path) = cs.map fun c => String.ofList c.path := by
  rw [readChanges, filterMap_record?, map_eq_ok] at h
  obtain ⟨files, hfiles, rfl⟩ := h
  rw [mapM_eq_ok, List.forall₂_map_left_iff] at hfiles
  induction hfiles with
  | nil => rfl
  | cons hfile _ ih => rw [List.map_cons, List.map_cons, path_of_changedFile hfile, ih]

theorem readChanges_eq_ok {cs : List ListedChange} (hnd : (cs.map (·.path)).Nodup)
    {set : ChangeSet} : readChanges (numstat cs) (nameStatus cs) = .ok set ↔
      (∀ c ∈ cs, c.IsReadable) ∧ set = ⟨cs.map (·.file)⟩ := by
  -- The statuses are those of all of `cs`, while the list that is read gets shorter.
  have hfiles : ∀ {ds : List ListedChange}, (∀ c ∈ ds, c ∈ cs) → ∀ {files : List ChangedFile},
      List.Forall₂ (fun c file => changedFile
        (cs.map fun c => (String.ofList c.path, c.letter.status)) c.fields.1 c.fields.2 c.path =
          .ok file) ds files ↔ (∀ c ∈ ds, c.IsReadable) ∧ files = ds.map (·.file) := by
    intro ds
    induction ds with
    | nil => simp
    | cons c ds ih =>
      intro hmem files
      rw [List.forall_mem_cons] at hmem
      simp only [List.forall₂_cons_left_iff, changedFile_fields (lastStatus?_of_mem hnd hmem.1),
        ih hmem.2, List.forall_mem_cons, List.map_cons]
      constructor
      · intro h
        obtain ⟨_, _, ⟨hc, rfl⟩, ⟨hds, rfl⟩, rfl⟩ := h
        exact ⟨⟨hc, hds⟩, rfl⟩
      · intro h
        obtain ⟨⟨hc, hds⟩, rfl⟩ := h
        exact ⟨_, _, ⟨hc, rfl⟩, ⟨hds, rfl⟩, rfl⟩
  rw [readChanges, statuses_nameStatus, filterMap_record?, map_eq_ok]
  simp only [mapM_eq_ok, List.forall₂_map_left_iff, hfiles fun _ hc => hc]
  constructor
  · intro hread
    obtain ⟨_, ⟨hall, rfl⟩, rfl⟩ := hread
    exact ⟨hall, rfl⟩
  · intro hboth
    exact ⟨_, ⟨hboth.1, rfl⟩, hboth.2.symm⟩

def Lists (git : Git) (base head : LooseText) (cs : List ListedChange) : Prop :=
  (∃ stderr, git ["diff", "--numstat", "-z", "--no-renames", sinceParting base head] =
    .finished (numstat cs) stderr 0) ∧
  ∃ stderr, git ["diff", "--name-status", "-z", "--no-renames", sinceParting base head] =
    .finished (nameStatus cs) stderr 0

theorem ask_gives_ok {git : Git} {question : Question} {stdout stderr : String}
    (h : git question = .finished stdout stderr 0) : Gives (git.ask question) (.ok stdout) := by
  unfold ask
  refine Gives.bind (fun _ => rfl) ?_
  rw [h]
  exact Gives.pure _

theorem changedFiles_gives_ok {git : Git} {base head : LooseText} {cs : List ListedChange}
    (h : git.Lists base head cs) {set : ChangeSet} :
    Gives (git.changedFiles base head) (.ok set) ↔
      readChanges (numstat cs) (nameStatus cs) = .ok set := by
  obtain ⟨⟨_, hcounts⟩, ⟨_, hletters⟩⟩ := h
  have hgives : Gives (git.changedFiles base head)
      ((readChanges (numstat cs) (nameStatus cs)).mapError .number) := by
    unfold changedFiles
    exact (ask_gives_ok hcounts).bind ((ask_gives_ok hletters).bind (Gives.pure _))
  have hread : (readChanges (numstat cs) (nameStatus cs)).mapError .number =
      (.ok set : Except ChangesError ChangeSet) ↔
        readChanges (numstat cs) (nameStatus cs) = .ok set := mapError_eq_ok
  rw [← hread]
  exact ⟨fun hset => hgives.unique hset, fun heq => heq ▸ hgives⟩

def answering (counts letters : String) : Git := fun question =>
  .finished (if question[1]? = some (.ofString "--numstat") then counts else letters) "" 0

theorem answering_lists (base head : LooseText) (cs : List ListedChange) :
    (answering (numstat cs) (nameStatus cs)).Lists base head cs :=
  ⟨⟨"", rfl⟩, ⟨"", rfl⟩⟩

end ChangeImpact.Git
