import ChangeImpact.Proofs.Data.Entries
import ChangeImpact.Proofs.Path.Parts
import ChangeImpact.Source.Tree

/-!
# Following paths in a tree

In a tree as a disk holds it, no folder has two entries of one name and every name can stand in a
path. Without parent marks a path is followed downwards only, and what `find` meets does not
depend on the folders above.
-/

namespace ChangeImpact.Tree

open ChangeImpact.Path

def IsName (s : String) : Prop := IsPart s ∧ s ≠ ".." ∧ '\x00' ∉ s.toList

instance (s : String) : Decidable (IsName s) := inferInstanceAs (Decidable (_ ∧ _))

theorem isFolderAt_iff {t : Tree} {p : Path} :
    t.isFolderAt p = true ↔ ∃ entries, t.at? p = some (.folder entries) := by
  rw [isFolderAt, Option.any_eq_true]
  constructor
  · rintro ⟨u, hu, hfolder⟩
    cases u with
    | file content => cases hfolder
    | folder entries => exact ⟨entries, hu⟩
  · rintro ⟨entries, ht⟩
    exact ⟨_, ht, rfl⟩

inductive WellFormed : Tree → Prop where
  | file (content : Text.Utf8.Bytes) : WellFormed (.file content)
  | folder {es : List (String × Tree)} (names : ∀ e ∈ es, IsName e.1)
      (nodup : (es.map (·.1)).Nodup) (below : ∀ e ∈ es, WellFormed e.2) : WellFormed (.folder es)

def find : Tree → List String → Option Tree
  | t, [] => some t
  | .file _, _ :: _ => none
  | .folder es, p :: r => (es.lookup p).bind (·.find r)

theorem follow_eq_find {parts : List String} (h : ".." ∉ parts) (t : Tree) (above : List Tree) :
    follow (t :: above) parts = t.find parts := by
  induction parts generalizing t above with
  | nil => rfl
  | cons p r ih =>
    obtain ⟨hp, hr⟩ := not_or.mp (List.mem_cons.not.mp h)
    cases t with
    | file content => rfl
    | folder es =>
      rw [follow, if_neg (by simpa using Ne.symm hp), find]
      cases es.lookup p with
      | none => rfl
      | some u => exact ih hr u _

theorem follow_append {parts : List String} (h : ".." ∉ parts) (trail : List Tree)
    (first : List String) :
    follow trail (first ++ parts) = (follow trail first).bind (·.find parts) := by
  induction first generalizing trail with
  | nil =>
    cases trail with
    | nil => cases parts <;> rfl
    | cons t above => exact follow_eq_find h t above
  | cons p r ih =>
    rcases trail with - | ⟨- | es, above⟩
    · rfl
    · rfl
    · rw [List.cons_append, follow, follow]
      split
      · exact ih _
      · cases es.lookup p with
        | none => rfl
        | some u => exact ih _

theorem at?_child {parts : List String} (h : ∀ p ∈ parts, IsPart p) (hup : ".." ∉ parts)
    (disk : Tree) (root : Path) :
    disk.at? (root.child (ofParts parts)) = (disk.at? root).bind (·.find parts) := by
  rw [child, ofString_ofParts h]
  exact follow_append hup [disk] root.parts

theorem WellFormed.follow {trail : List Tree} (h : ∀ t ∈ trail, t.WellFormed) {parts : List String}
    {u : Tree} (hu : Tree.follow trail parts = some u) :
    u.WellFormed ∧ ∀ p ∈ parts, p = ".." ∨ IsName p := by
  induction parts generalizing trail with
  | nil => exact ⟨h u (List.mem_of_head? hu), by simp⟩
  | cons p r ih =>
    cases trail with
    | nil => cases hu
    | cons t above =>
      cases h t List.mem_cons_self with
      | file content => cases hu
      | @folder es names nodup below =>
        rw [Tree.follow] at hu
        -- A parent mark goes back along the trail, and a name goes on to an entry.
        by_cases hp : p = ".."
        · rw [if_pos (by simpa using hp)] at hu
          have habove : ∀ t ∈ (if above.isEmpty then .folder es :: above else above),
              t.WellFormed := by
            split
            · exact h
            · exact fun t ht => h t (List.mem_cons_of_mem _ ht)
          obtain ⟨hwf, hr⟩ := ih habove hu
          exact ⟨hwf, List.forall_mem_cons.mpr ⟨.inl hp, hr⟩⟩
        · rw [if_neg (by simpa using hp)] at hu
          cases hl : es.lookup p with
          | none => simp [hl] at hu
          | some v =>
            have hmem := mem_of_lookup hl
            rw [hl] at hu
            obtain ⟨hwf, hr⟩ := ih (List.forall_mem_cons.mpr ⟨below _ hmem, h⟩) hu
            exact ⟨hwf, List.forall_mem_cons.mpr ⟨.inr (names _ hmem), hr⟩⟩

theorem WellFormed.at? {disk t : Tree} (h : disk.WellFormed) {p : Path}
    (ht : disk.at? p = some t) : t.WellFormed ∧ p.holdsNull = false := by
  obtain ⟨hwf, hparts⟩ := WellFormed.follow (List.forall_mem_singleton.mpr h) ht
  refine ⟨hwf, List.any_eq_false.mpr fun q hq => ?_⟩
  rcases hparts q hq with rfl | hname
  · decide
  · simpa using hname.2.2

theorem WellFormed.isName_of_find {t u : Tree} (h : t.WellFormed) {parts : List String}
    (hu : t.find parts = some u) : ∀ p ∈ parts, IsName p := by
  induction parts generalizing t with
  | nil => simp
  | cons p r ih =>
    cases h with
    | file content => cases hu
    | folder names nodup below =>
      obtain ⟨v, hv, hu⟩ := Option.bind_eq_some_iff.mp hu
      have hmem := mem_of_lookup hv
      exact List.forall_mem_cons.mpr ⟨names _ hmem, ih (below _ hmem) hu⟩

theorem child_ofParts {parts : List String} (h : ∀ p ∈ parts, IsPart p) (root : Path) :
    root.child (ofParts parts) = root.down parts := by
  rw [child, ofString_ofParts h]
  rfl

section Refused

variable {above parts : List String}

theorem asksOverlongName_append {trail : List Tree} (h : asksOverlongName trail above = true)
    (below : List String) :
    asksOverlongName trail (above ++ below) = true := by
  induction above generalizing trail with
  | nil => cases h
  | cons p r ih =>
    rcases trail with _ | ⟨_ | es, upper⟩
    · cases h
    · cases h
    · rw [asksOverlongName] at h
      rw [List.cons_append, asksOverlongName]
      split
      next hup => exact ih (by rwa [if_pos hup] at h)
      next hup =>
        rw [if_neg hup, Bool.or_eq_true] at h
        refine (Bool.or_eq_true _ _).mpr (h.imp_right fun h => ?_)
        cases hl : es.lookup p with
        | none => simp [hl] at h
        | some t => exact ih (by rwa [hl] at h)

theorem utf8ByteSize_intercalate_le (sep : String) (above below : List String) :
    (sep.intercalate above).utf8ByteSize ≤ (sep.intercalate (above ++ below)).utf8ByteSize := by
  induction above with
  | nil => exact Nat.zero_le _
  | cons p r ih =>
    cases r with
    | nil =>
      cases below with
      | nil => exact Nat.le_refl _
      | cons q s =>
        rw [List.singleton_append, String.intercalate_singleton, String.intercalate_cons_cons,
          String.utf8ByteSize_append, String.utf8ByteSize_append]
        omega
    | cons q s =>
      rw [List.cons_append, List.cons_append, String.intercalate_cons_cons,
        String.intercalate_cons_cons]
      simp only [String.utf8ByteSize_append]
      exact Nat.add_le_add_left ih _

theorem text_of_parts {p : Path} (h : p.parts ≠ []) :
    p.text = p.anchor.text ++ "/".intercalate p.parts := by
  obtain ⟨anchor, parts⟩ := p
  obtain ⟨name, r, rfl⟩ := List.exists_cons_of_ne_nil h
  cases anchor <;> rfl

theorem pathLimit_le_down (h : above <+: parts) {p : Path}
    (hlong : pathLimit ≤ (p.down above).text.utf8ByteSize) :
    pathLimit ≤ (p.down parts).text.utf8ByteSize := by
  obtain ⟨below, rfl⟩ := h
  obtain ⟨anchor, start⟩ := p
  simp only [down, ← List.append_assoc] at hlong ⊢
  by_cases hempty : start ++ above = []
  · rw [hempty] at hlong
    cases anchor <;> exact absurd hlong (by decide)
  · have hgrows := utf8ByteSize_intercalate_le "/" (start ++ above) below
    rw [text_of_parts hempty, String.utf8ByteSize_append] at hlong
    rw [text_of_parts (List.append_ne_nil_of_left_ne_nil hempty below), String.utf8ByteSize_append]
    exact Nat.le_trans hlong (Nat.add_le_add_left hgrows _)

theorem refuses_of_prefix {disk : Tree} {root : Path} (h : above <+: parts)
    (hnull : (root.down parts).holdsNull = false) (hrefused : disk.refuses (root.down above)) :
    disk.refuses (root.down parts) = true := by
  rw [refuses, Bool.and_eq_true, Bool.or_eq_true, decide_eq_true_eq] at hrefused ⊢
  refine ⟨by rw [hnull]; rfl, hrefused.2.imp (pathLimit_le_down h) fun hasks => ?_⟩
  obtain ⟨below, rfl⟩ := h
  simp only [down, ← List.append_assoc] at hasks ⊢
  exact asksOverlongName_append hasks below

end Refused

end ChangeImpact.Tree
