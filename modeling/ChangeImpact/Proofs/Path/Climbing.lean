import ChangeImpact.Proofs.Path.Parts
import ChangeImpact.Proofs.Text.Strip

/-!
# Climbing up from a folder

A path that goes down into folders, up again and down to names leads to the folders that were not
left again, and to the names. Where it goes up further than it went down, parent marks are left.
-/

namespace ChangeImpact

namespace Text

theorem splitOn_append_cons {sep : Char} {s : List Char} (h : sep ∉ s) (t : List Char) :
    splitOn sep (s ++ sep :: t) = s :: splitOn sep t := by
  have hs : ∀ c ∈ s, (c == sep) = false := fun c hc =>
    beq_eq_false_iff_ne.mpr (ne_of_mem_of_not_mem hc h)
  simp only [splitOn, splitWhere_eq_splitOnP]
  exact List.splitOnP_append_cons_of_forall_mem hs sep (beq_self_eq_true sep) t

end Text

namespace Path

def slashed (parts : List String) : List Char := parts.flatMap fun p => p.toList ++ ['/']

theorem slashed_cons (p : String) (r : List String) :
    slashed (p :: r) = p.toList ++ '/' :: slashed r := by
  simp [slashed]

theorem slashed_append (p q : List String) : slashed (p ++ q) = slashed p ++ slashed q :=
  List.flatMap_append

def isKeptPart (p : String) : Bool := p != "" && p != "."

theorem filter_isKeptPart {parts : List String} (h : ∀ p ∈ parts, IsPart p) :
    parts.filter isKeptPart = parts := by
  rw [List.filter_eq_self]
  intro p hp
  obtain ⟨hne, hdot, -⟩ := h p hp
  simp [isKeptPart, hne, hdot]

theorem parts_slashed {parts : List String} (h : ∀ p ∈ parts, '/' ∉ p.toList) (t : List Char) :
    (ofString (String.ofList (slashed parts ++ t))).parts =
      parts.filter isKeptPart ++ (ofString (String.ofList t)).parts := by
  induction parts with
  | nil => rfl
  | cons p r ih =>
    obtain ⟨hp, hr⟩ := List.forall_mem_cons.mp h
    have hsplit : Text.splitOn '/' (slashed (p :: r) ++ t) =
        p.toList :: Text.splitOn '/' (slashed r ++ t) := by
      rw [slashed_cons, List.append_assoc, List.cons_append, Text.splitOn_append_cons hp]
    have hrest := ih hr
    simp only [ofString, Text.fields, String.toList_ofList] at hrest ⊢
    rw [hsplit, List.map_cons, List.filter_cons, String.ofList_toList, hrest, List.filter_cons]
    cases hk : isKeptPart p with
    | true =>
      rw [isKeptPart] at hk
      simp [hk]
    | false =>
      rw [isKeptPart] at hk
      simp [hk]

theorem slashed_ofParts {parts : List String} (h : parts ≠ []) :
    (ofParts parts).toList ++ ['/'] = slashed parts := by
  rw [toList_ofParts h]
  induction parts with
  | nil => exact absurd rfl h
  | cons p r ih =>
    cases r with
    | nil => simp [slashed]
    | cons q s =>
      rw [List.map_cons, List.map_cons, List.intercalate_cons_cons, slashed_cons,
        ← ih (List.cons_ne_nil q s), List.map_cons]
      simp

theorem toList_ofParts_slashed (dirs : List String) (name : String) :
    (ofParts (dirs ++ [name])).toList = slashed dirs ++ name.toList := by
  have hne : dirs ++ [name] ≠ [] := by simp
  have h := slashed_ofParts hne
  rw [slashed_append, slashed_cons, ← List.append_assoc] at h
  exact List.append_inj_left' h rfl

theorem directoryText_ofParts {dirs : List String} {name : String}
    (h : ∀ p ∈ dirs ++ [name], IsPart p) :
    directoryText (ofParts (dirs ++ [name])) = if dirs = [] then "" else ofParts dirs := by
  have hname : ∀ c ∈ name.toList.reverse, (c != '/') = true := by
    intro c hc
    exact bne_iff_ne.mpr fun heq => (h name (by simp)).2.2 (heq ▸ List.mem_reverse.mp hc)
  rw [directoryText, toList_ofParts_slashed, List.reverse_append,
    List.dropWhile_append_of_pos hname]
  rcases List.eq_nil_or_concat dirs with rfl | ⟨init, last, rfl⟩
  · rfl
  · rw [List.concat_eq_append] at *
    obtain ⟨hne, -, hslash⟩ := h last (by simp)
    obtain ⟨t, c, hc⟩ : ∃ t c, last.toList = t ++ [c] := by
      rcases List.eq_nil_or_concat last.toList with hn | ⟨t, c, hc⟩
      · exact absurd (String.toList_eq_nil_iff.mp hn) hne
      · exact ⟨t, c, by rw [hc, List.concat_eq_append]⟩
    have hlast : (c == '/') = false := by
      rw [beq_eq_false_iff_ne]
      intro heq
      exact hslash (by simp [hc, heq])
    have hbare : Text.trimRight (· == '/') (slashed (init ++ [last])) =
        (ofParts (init ++ [last])).toList := by
      rw [← slashed_ofParts (by simp), Text.trimRight_append (by simp), toList_ofParts_slashed, hc,
        ← List.append_assoc, Text.trimRight_append_cons (p := (· == '/')) hlast]
      rfl
    have hdir : ((slashed (init ++ [last])).reverse.dropWhile (· != '/')).reverse =
        slashed (init ++ [last]) := by
      rw [← slashed_ofParts (by simp), List.reverse_append]
      simp
    have hempty : (ofParts (init ++ [last])).toList.isEmpty = false := by
      rw [toList_ofParts_slashed, hc]
      simp
    simp only [hdir, hbare, hempty]
    simp

theorem resolveParts_down {parts : List String} (h : ".." ∉ parts) (done rest : List String) :
    resolveParts ".." false done (parts ++ rest) =
      resolveParts ".." false (parts.reverse ++ done) rest := by
  induction parts generalizing done with
  | nil => rfl
  | cons p r ih =>
    rw [List.mem_cons, not_or] at h
    have hkeep : (p != ".." || (!false && done.isEmpty) || done.head? == some "..") = true := by
      simp [Ne.symm h.1]
    rw [List.cons_append, resolveParts, if_pos hkeep, ih h.2, List.reverse_cons, List.append_assoc,
      List.singleton_append]

theorem resolveParts_marks (i n : Nat) (rest : List String) :
    resolveParts ".." false (List.replicate i "..") (List.replicate n ".." ++ rest) =
      resolveParts ".." false (List.replicate (i + n) "..") rest := by
  induction n generalizing i with
  | zero => simp
  | succ n ih =>
    have hkeep : (".." != ".." || (!false && (List.replicate i "..").isEmpty) ||
        (List.replicate i "..").head? == some "..") = true := by
      cases i <;> simp [List.replicate_succ]
    rw [List.replicate_succ, List.cons_append, resolveParts, if_pos hkeep, ← List.replicate_succ,
      ih, Nat.succ_add_eq_add_succ]

theorem resolveParts_up {done rest : List String} (h : ".." ∉ done) (n : Nat) :
    resolveParts ".." false done (List.replicate n ".." ++ rest) =
      resolveParts ".." false (List.replicate (n - done.length) ".." ++ done.drop n) rest := by
  induction n generalizing done with
  | zero => simp
  | succ n ih =>
    cases done with
    | nil => simpa using resolveParts_marks 0 (n + 1) rest
    | cons d ds =>
      rw [List.mem_cons, not_or] at h
      have hdrop : (".." != ".." || (!false && (d :: ds).isEmpty) ||
          (d :: ds).head? == some "..") = false := by
        simp [Ne.symm h.1]
      rw [List.replicate_succ, List.cons_append, resolveParts, hdrop, if_neg Bool.false_ne_true,
        List.tail_cons, ih h.2, List.length_cons, Nat.add_sub_add_right, List.drop_succ_cons]

theorem resolveParts_climb {dirs names : List String} (hdirs : ".." ∉ dirs) (hnames : ".." ∉ names)
    (n : Nat) : resolveParts ".." false [] (dirs ++ (List.replicate n ".." ++ names)) =
      dirs.take (dirs.length - n) ++ (List.replicate (n - dirs.length) ".." ++ names) := by
  have hreverse : ".." ∉ dirs.reverse ++ [] := by simpa using hdirs
  have hlast := resolveParts_down hnames
    (List.replicate (n - dirs.length) ".." ++ dirs.reverse.drop n) []
  rw [List.append_nil] at hlast
  rw [resolveParts_down hdirs, resolveParts_up hreverse, List.append_nil, List.length_reverse,
    hlast, resolveParts, List.drop_reverse]
  simp

end Path

end ChangeImpact
