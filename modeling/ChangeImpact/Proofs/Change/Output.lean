import ChangeImpact.Proofs.Change.Listed
import ChangeImpact.Proofs.Text.Utf8

/-!
# Lists as a program puts them out

A program puts its lists out in bytes. In the text that is made of them a carriage return has become
a line feed, also where it stands in a path. So a list is read back as it was put out unless some
path holds a carriage return or some count has more digits than can be read:
`changedFiles_gives_iff`.
-/

namespace ChangeImpact.Git

open Text
open Text.Utf8 (Bytes encode)

section LineFeeds

variable {s t : List Char} {c : Char}

theorem withLineFeeds_cons (hc : c ≠ '\r') (t : List Char) :
    withLineFeeds (c :: t) = c :: withLineFeeds t := by
  rw [withLineFeeds.eq_def]
  split <;> simp_all

theorem withLineFeeds_append_cons (hreturn : c ≠ '\r') (hfeed : c ≠ '\n') (s t : List Char) :
    withLineFeeds (s ++ c :: t) = withLineFeeds s ++ c :: withLineFeeds t := by
  fun_induction withLineFeeds s with
  | case1 => exact withLineFeeds_cons hreturn t
  | case2 r ih => rw [List.cons_append, List.cons_append, withLineFeeds, ih, List.cons_append]
  | case3 r halone ih =>
    rw [List.cons_append, withLineFeeds, ih, List.cons_append]
    intro r' heq
    cases r with
    | nil => exact hfeed (List.cons.inj heq).1
    | cons d r => exact halone r (congrArg (· :: r) (List.cons.inj heq).1)
  | case4 d r _ hd ih =>
    have hne : d ≠ '\r' := fun heq => hd heq
    rw [List.cons_append, withLineFeeds_cons hne, ih, List.cons_append]

theorem mem_withLineFeeds (h : c ∈ withLineFeeds s) : c = '\n' ∨ c ≠ '\r' ∧ c ∈ s := by
  fun_induction withLineFeeds s with
  | case1 => cases h
  | case2 r ih =>
    rcases List.mem_cons.mp h with heq | hmem
    · exact .inl heq
    · exact (ih hmem).imp_right (And.imp_right (List.mem_cons_of_mem _ ∘ List.mem_cons_of_mem _))
  | case3 r _ ih =>
    rcases List.mem_cons.mp h with heq | hmem
    · exact .inl heq
    · exact (ih hmem).imp_right (And.imp_right (List.mem_cons_of_mem _))
  | case4 d r _ hd ih =>
    rcases List.mem_cons.mp h with rfl | hmem
    · exact .inr ⟨hd, List.mem_cons_self⟩
    · exact (ih hmem).imp_right (And.imp_right (List.mem_cons_of_mem _))

theorem withLineFeeds_eq_self_iff : withLineFeeds s = s ↔ '\r' ∉ s := by
  constructor
  · intro heq hmem
    rcases mem_withLineFeeds (heq.symm ▸ hmem) with hfeed | ⟨hne, -⟩
    · exact absurd hfeed (by decide)
    · exact hne rfl
  · intro h
    induction s with
    | nil => rfl
    | cons d r ih =>
      rw [List.mem_cons, not_or] at h
      rw [withLineFeeds_cons (Ne.symm h.1), ih h.2]

end LineFeeds

namespace ListedChange

def converted (c : ListedChange) : ListedChange where
  path := withLineFeeds c.path
  letter := c.letter
  counts := c.counts
  noNul hmem := by
    rcases mem_withLineFeeds hmem with hfeed | ⟨-, hnul⟩
    · exact absurd hfeed (by decide)
    · exact c.noNul hnul

theorem converted_eq_self_iff {c : ListedChange} : c.converted = c ↔ '\r' ∉ c.path := by
  rw [← withLineFeeds_eq_self_iff]
  exact ⟨congrArg ListedChange.path, fun h => by obtain ⟨⟩ := c; simp_all [converted]⟩

theorem notMem_return_fields (c : ListedChange) : '\r' ∉ c.fields.1 ∧ '\r' ∉ c.fields.2 := by
  have hdigits (n : Nat) : '\r' ∉ Decimal.digits n := by
    intro hmem
    have hall : ∀ d < 10, Nat.digitChar d ≠ '\r' := by decide
    obtain ⟨d, hd, heq⟩ := exists_digitChar n _ hmem
    exact hall d hd heq.symm
  unfold fields
  split
  · exact ⟨hdigits _, hdigits _⟩
  · decide

theorem withLineFeeds_record (c : ListedChange) (t : List Char) :
    withLineFeeds (c.record ++ '\x00' :: t) =
      c.converted.record ++ '\x00' :: withLineFeeds t := by
  obtain ⟨hadded, hdeleted⟩ := c.notMem_return_fields
  have hfields : c.converted.fields = c.fields := rfl
  have htab : ∀ s t : List Char, withLineFeeds (s ++ '\t' :: t) =
      withLineFeeds s ++ '\t' :: withLineFeeds t :=
    withLineFeeds_append_cons (by decide) (by decide)
  have hnul : ∀ s t : List Char, withLineFeeds (s ++ '\x00' :: t) =
      withLineFeeds s ++ '\x00' :: withLineFeeds t :=
    withLineFeeds_append_cons (by decide) (by decide)
  rw [hnul, record, htab, htab, withLineFeeds_eq_self_iff.mpr hadded,
    withLineFeeds_eq_self_iff.mpr hdeleted, record, hfields]
  rfl

end ListedChange

theorem withLineFeeds_numstat (cs : List ListedChange) :
    withLineFeeds (numstat cs).toList = (numstat (cs.map (·.converted))).toList := by
  rw [numstat, numstat, String.toList_ofList, String.toList_ofList]
  induction cs with
  | nil => rfl
  | cons c cs ih =>
    rw [List.flatMap_cons, List.append_assoc, List.singleton_append, c.withLineFeeds_record, ih,
      List.map_cons, List.flatMap_cons, List.append_assoc, List.singleton_append]

theorem withLineFeeds_nameStatus (cs : List ListedChange) :
    withLineFeeds (nameStatus cs).toList = (nameStatus (cs.map (·.converted))).toList := by
  rw [nameStatus, nameStatus, String.toList_ofList, String.toList_ofList]
  induction cs with
  | nil => rfl
  | cons c cs ih =>
    have hletter : c.letter.char ≠ '\r' := by cases c.letter <;> decide
    simp only [List.flatMap_cons, List.map_cons, List.cons_append, List.nil_append,
      List.append_assoc] at ih ⊢
    rw [withLineFeeds_cons hletter, withLineFeeds_cons (by decide),
      withLineFeeds_append_cons (by decide) (by decide), ih]
    rfl

theorem outputText_encode (s : String) :
    outputText (encode s.toList) = String.ofList (withLineFeeds s.toList) := by
  rw [outputText, Utf8.decodeLossy_encode]

def PutsOut (program : Question → GitReply Bytes) (base head : LooseText)
    (cs : List ListedChange) : Prop :=
  (∃ stderr, program ["diff", "--numstat", "-z", "--no-renames", sinceParting base head] =
    .finished (encode (numstat cs).toList) stderr 0) ∧
  ∃ stderr, program ["diff", "--name-status", "-z", "--no-renames", sinceParting base head] =
    .finished (encode (nameStatus cs).toList) stderr 0

section Program

variable {program : Question → GitReply Bytes} {base head : LooseText} {cs : List ListedChange}

theorem PutsOut.lists (h : PutsOut program base head cs) :
    (ofProgram program).Lists base head (cs.map (·.converted)) := by
  obtain ⟨⟨stderr, hcounts⟩, ⟨stderr', hletters⟩⟩ := h
  constructor
  · refine ⟨outputText stderr, ?_⟩
    rw [ofProgram, hcounts, GitReply.map, outputText_encode, withLineFeeds_numstat,
      String.ofList_toList]
  · refine ⟨outputText stderr', ?_⟩
    rw [ofProgram, hletters, GitReply.map, outputText_encode, withLineFeeds_nameStatus,
      String.ofList_toList]

theorem notMem_return_of_gives (h : PutsOut program base head cs)
    (hgives : Gives ((ofProgram program).changedFiles base head) (.ok ⟨cs.map (·.file)⟩)) :
    ∀ c ∈ cs, '\r' ∉ c.path := by
  have hfile (c : ListedChange) : c.file.path = String.ofList c.path := by
    unfold ListedChange.file
    split <;> rfl
  have hpaths := paths_of_readChanges ((changedFiles_gives_ok h.lists).mp hgives)
  rw [List.map_map, List.map_map, List.map_inj_left] at hpaths
  intro c hc
  have heq := String.ofList_injective ((hfile c).symm.trans (hpaths c hc))
  exact withLineFeeds_eq_self_iff.mp heq.symm

/-- The changes are told as the program puts them out just when all their counts can be read and no
path holds a carriage return. -/
theorem changedFiles_gives_iff (hnd : (cs.map (·.path)).Nodup) (h : PutsOut program base head cs) :
    Gives ((ofProgram program).changedFiles base head) (.ok ⟨cs.map (·.file)⟩) ↔
      ∀ c ∈ cs, c.IsReadable ∧ '\r' ∉ c.path := by
  have hkept (hreturn : ∀ c ∈ cs, '\r' ∉ c.path) :
      Gives ((ofProgram program).changedFiles base head) (.ok ⟨cs.map (·.file)⟩) ↔
        ∀ c ∈ cs, c.IsReadable := by
    have hsame : cs.map (·.converted) = cs :=
      (List.map_congr_left fun c hc =>
        ListedChange.converted_eq_self_iff.mpr (hreturn c hc)).trans (List.map_id' cs)
    rw [changedFiles_gives_ok (hsame ▸ h.lists), readChanges_eq_ok hnd, and_iff_left rfl]
  constructor
  · intro hgives
    have hreturn := notMem_return_of_gives h hgives
    exact fun c hc => ⟨(hkept hreturn).mp hgives c hc, hreturn c hc⟩
  · intro hall
    exact (hkept fun c hc => (hall c hc).2).mpr fun c hc => (hall c hc).1

end Program

def printing (cs : List ListedChange) : Question → GitReply Bytes := fun question =>
  .finished (encode (if question[1]? = some (.ofString "--numstat") then numstat cs
    else nameStatus cs).toList) [] 0

theorem putsOut_printing (base head : LooseText) (cs : List ListedChange) :
    PutsOut (printing cs) base head cs :=
  ⟨⟨[], rfl⟩, ⟨[], rfl⟩⟩

def logoAndNotes : List ListedChange :=
  [⟨"logo.png".toList, .retyped, none, by decide⟩,
    ⟨"a\tb\n.txt".toList, .added, some (12, 0), by decide⟩]

theorem changedFiles_logoAndNotes :
    (logoAndNotes.map (·.path)).Nodup ∧ PutsOut (printing logoAndNotes) "main" "HEAD" logoAndNotes ∧
      Gives ((ofProgram (printing logoAndNotes)).changedFiles "main" "HEAD")
        (.ok ⟨[{ path := "logo.png", status := .binary },
          { path := "a\tb\n.txt", additions := 12, status := .added }]⟩) := by
  have hnd : (logoAndNotes.map (·.path)).Nodup := by decide
  have hout := putsOut_printing "main" "HEAD" logoAndNotes
  refine ⟨hnd, hout, (changedFiles_gives_iff hnd hout).mpr ?_⟩
  refine List.forall_mem_cons.mpr ⟨⟨trivial, by decide⟩,
    List.forall_mem_singleton.mpr ⟨⟨?_, ?_⟩, by decide⟩⟩
  · exact isReadable_of_lt (k := 2) (by decide) (by decide)
  · exact isReadable_of_lt (k := 1) (by decide) (by decide)

def returnInPath : List ListedChange :=
  [⟨"a\rb.txt".toList, .added, some (1, 1), by decide⟩]

/-- A path with a carriage return is told with a line feed. -/
theorem not_gives_returnInPath :
    (returnInPath.map (·.path)).Nodup ∧ PutsOut (printing returnInPath) "main" "HEAD" returnInPath ∧
      ¬Gives ((ofProgram (printing returnInPath)).changedFiles "main" "HEAD")
        (.ok ⟨returnInPath.map (·.file)⟩) := by
  have hout := putsOut_printing "main" "HEAD" returnInPath
  refine ⟨by decide, hout, fun hgives => ?_⟩
  exact notMem_return_of_gives hout hgives _ (List.mem_singleton_self _) (by decide)

end ChangeImpact.Git
