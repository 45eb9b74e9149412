import ChangeImpact.Proofs.Path.Climbing

/-!
# Paths that lead outside

A relative path leads outside the folder it starts from where some run of parts at its beginning
has more parent marks than names. Resolving the marks part by part then leaves a mark in front,
and only then.
-/

namespace ChangeImpact.Path

def isMark (p : String) : Bool := p == ".."

/-- Some run of parts at the beginning goes up more often than it goes down. -/
def Climbs (parts : List String) : Prop :=
  ∃ front, front <+: parts ∧ front.countP (!isMark ·) < front.countP isMark

/-- The path is absolute, or a parent mark is left in front when its marks are resolved. -/
def Escapes (s : String) : Prop :=
  (ofString s).isAbsolute = true ∨ normalText s = ".." ∨ "../".toList <+: (normalText s).toList

section Parts

variable {done parts : List String}

/-- A mark at the bottom of what is done is never resolved. -/
theorem head?_resolveParts_of_mark (h : done.getLast? = some "..") :
    (resolveParts ".." false done parts).head? = some ".." := by
  induction parts generalizing done with
  | nil => rw [resolveParts, List.head?_reverse, h]
  | cons p r ih =>
    obtain ⟨d, ds, rfl⟩ : ∃ d ds, done = d :: ds := by
      cases done with
      | nil => cases h
      | cons d ds => exact ⟨d, ds, rfl⟩
    rw [resolveParts]
    split
    · exact ih (by rw [List.getLast?_cons_cons, h])
    next hdrop =>
      have hd : d ≠ ".." := by
        intro heq
        simp [heq] at hdrop
      refine ih ?_
      cases ds with
      | nil => exact absurd (Option.some.inj h) hd
      | cons e es => rwa [List.getLast?_cons_cons] at h

def ClimbsFrom (depth : Nat) (parts : List String) : Prop :=
  ∃ front, front <+: parts ∧ depth + front.countP (!isMark ·) < front.countP isMark

theorem not_climbsFrom_nil (depth : Nat) : ¬ ClimbsFrom depth [] := by
  rintro ⟨front, hfront, hlt⟩
  rw [List.prefix_nil.mp hfront] at hlt
  exact Nat.not_lt_zero _ hlt

theorem climbsFrom_cons {depth depth' : Nat} {p : String} {r : List String}
    (h : ∀ front : List String,
      depth + (p :: front).countP (!isMark ·) < (p :: front).countP isMark ↔
        depth' + front.countP (!isMark ·) < front.countP isMark) :
    ClimbsFrom depth (p :: r) ↔ ClimbsFrom depth' r := by
  constructor
  · rintro ⟨front, hfront, hlt⟩
    rcases List.prefix_cons_iff.mp hfront with rfl | ⟨t, rfl, ht⟩
    · exact absurd hlt (Nat.not_lt_zero _)
    · exact ⟨t, ht, (h t).mp hlt⟩
  · rintro ⟨front, hfront, hlt⟩
    exact ⟨p :: front, List.prefix_cons_inj p |>.mpr hfront, (h front).mpr hlt⟩

theorem climbsFrom_name {depth : Nat} {p : String} {r : List String} (hp : p ≠ "..") :
    ClimbsFrom depth (p :: r) ↔ ClimbsFrom (depth + 1) r := by
  have hname : isMark p = false := beq_eq_false_iff_ne.mpr hp
  refine climbsFrom_cons fun front => ?_
  rw [List.countP_cons_of_pos (by simp [hname]), List.countP_cons_of_neg (by simp [hname])]
  omega

theorem climbsFrom_mark {depth : Nat} {r : List String} :
    ClimbsFrom (depth + 1) (".." :: r) ↔ ClimbsFrom depth r := by
  have hmark : isMark ".." = true := rfl
  refine climbsFrom_cons fun front => ?_
  rw [List.countP_cons_of_neg (by simp [hmark]), List.countP_cons_of_pos hmark]
  omega

theorem climbsFrom_zero_mark (r : List String) : ClimbsFrom 0 (".." :: r) :=
  ⟨[".."], List.prefix_append [".."] r, by decide⟩

/-- `done` are the names that the path has gone down so far. -/
theorem head?_resolveParts_iff (h : ".." ∉ done) :
    (resolveParts ".." false done parts).head? = some ".." ↔ ClimbsFrom done.length parts := by
  -- A name goes to `done` and a mark takes one off; a mark that finds none stays in front.
  induction parts generalizing done with
  | nil =>
    refine iff_of_false (fun hhead => h ?_) (not_climbsFrom_nil _)
    exact List.mem_reverse.mp (List.mem_of_head? hhead)
  | cons p r ih =>
    by_cases hp : p = ".."
    · subst hp
      cases done with
      | nil =>
        rw [resolveParts, if_pos (by simp)]
        exact iff_of_true (head?_resolveParts_of_mark rfl) (climbsFrom_zero_mark r)
      | cons d ds =>
        rw [List.mem_cons, not_or] at h
        have hdrop : (".." != ".." || (!false && (d :: ds).isEmpty) ||
            (d :: ds).head? == some "..") = false := by
          simp [Ne.symm h.1]
        rw [resolveParts, hdrop, if_neg Bool.false_ne_true, List.tail_cons, ih h.2,
          List.length_cons, climbsFrom_mark]
    · have hkeep : (p != ".." || (!false && done.isEmpty) || done.head? == some "..") = true := by
        simp [hp]
      have hmore : ".." ∉ p :: done := by
        rw [List.mem_cons, not_or]
        exact ⟨Ne.symm hp, h⟩
      rw [resolveParts, if_pos hkeep, ih hmore, List.length_cons, climbsFrom_name hp]

theorem climbs_iff : Climbs parts ↔ (resolveParts ".." false [] parts).head? = some ".." := by
  rw [head?_resolveParts_iff List.not_mem_nil, Climbs, ClimbsFrom]
  simp only [List.length_nil, Nat.zero_add]

theorem Climbs.of_head (h : parts.head? = some "..") : Climbs parts := by
  obtain ⟨r, rfl⟩ := List.head?_eq_some_iff.mp h
  exact ⟨[".."], List.prefix_append [".."] r, by decide⟩

end Parts

section Texts

theorem eq_or_eq_append_slash {s t : List Char} (h : s.takeWhile (· != '/') = t) :
    s = t ∨ ∃ u, s = t ++ '/' :: u := by
  have hsplit := List.takeWhile_append_dropWhile (p := (· != '/')) (l := s)
  rw [h] at hsplit
  cases hrest : s.dropWhile (· != '/') with
  | nil =>
    rw [hrest, List.append_nil] at hsplit
    exact .inl hsplit.symm
  | cons c u =>
    have hc := List.head?_dropWhile_not (· != '/') s
    rw [hrest] at hc
    obtain rfl : c = '/' := by simpa using hc
    rw [hrest] at hsplit
    exact .inr ⟨u, hsplit.symm⟩

theorem ofParts_leads_iff {parts : List String} (h : ∀ p ∈ parts, IsPart p) :
    ofParts parts = ".." ∨ "../".toList <+: (ofParts parts).toList ↔
      parts.head? = some ".." := by
  cases parts with
  | nil => decide
  | cons p r =>
    obtain ⟨-, -, hslash⟩ := h p List.mem_cons_self
    have hstop : ∀ c ∈ p.toList, (c != '/') = true := fun c hc =>
      bne_iff_ne.mpr (ne_of_mem_of_not_mem hc hslash)
    have hfirst : (ofParts (p :: r)).toList.takeWhile (· != '/') = p.toList := by
      rw [toList_ofParts (List.cons_ne_nil p r)]
      cases r with
      | nil => simpa using hstop
      | cons q t =>
        rw [List.map_cons, List.map_cons, List.intercalate_cons_cons, List.append_assoc,
          List.takeWhile_append_of_pos hstop]
        simp
    have hp : p = ".." ↔ (ofParts (p :: r)).toList.takeWhile (· != '/') = "..".toList := by
      rw [hfirst, String.toList_inj]
    rw [List.head?_cons, Option.some.injEq, hp]
    constructor
    · rintro (heq | ⟨t, ht⟩)
      · rw [heq]
        rfl
      · rw [← ht]
        rfl
    · intro htake
      refine (eq_or_eq_append_slash htake).imp String.toList_inj.mp ?_
      rintro ⟨t, ht⟩
      exact ⟨t, ht.symm⟩

theorem escapes_iff {s : String} :
    Escapes s ↔ (ofString s).isAbsolute = true ∨ Climbs (ofString s).parts := by
  rw [Escapes]
  by_cases habs : (ofString s).isAbsolute = true
  · exact iff_of_true (.inl habs) (.inl habs)
  · have hrelative : (ofString s).anchor = .relative := by
      simpa [isAbsolute] using habs
    have htext : normalText s = ofParts (resolveParts ".." false [] (ofString s).parts) := by
      simp only [normalText, normalise, hrelative, isAbsolute, ofParts]
      rfl
    have hparts : ∀ p ∈ resolveParts ".." false [] (ofString s).parts, IsPart p := by
      intro p hp
      rcases mem_resolveParts hp with hp | hp
      · exact absurd hp List.not_mem_nil
      · exact isPart_of_mem_ofString hp
    rw [or_iff_right habs, or_iff_right habs, htext, ofParts_leads_iff hparts, climbs_iff]

def firstStep (s : String) : List Char := s.toList.takeWhile (· != '/')

theorem isAbsolute_ofString {s : String} :
    (ofString s).isAbsolute = true ↔ s.toList.head? = some '/' := by
  rw [ofString, isAbsolute, bne_iff_ne]
  constructor
  · intro h
    by_contra hhead
    exact h (anchorOf_of_head hhead)
  · intro h
    obtain ⟨r, hr⟩ := List.head?_eq_some_iff.mp h
    rw [hr]
    unfold anchorOf
    split <;> simp_all

theorem head?_parts_ofString {s : String} (h : firstStep s = "..".toList) :
    (ofString s).parts.head? = some ".." := by
  rcases eq_or_eq_append_slash h with hs | ⟨t, ht⟩
  · rw [String.toList_inj.mp hs]
    decide
  · have hs : s = String.ofList (slashed [".."] ++ t) := by
      rw [← String.toList_inj, String.toList_ofList, ht]
      rfl
    rw [hs, parts_slashed (by decide)]
    rfl

end Texts

end ChangeImpact.Path
