import ChangeImpact.Imports.Scan
import Mathlib.Data.List.Nodup
import Mathlib.Data.List.Perm.Basic

/-!
# A scan piece by piece

A text that is a row of pieces is scanned piece by piece, as long as no find reaches over the end
of its piece. A piece is silent where nothing is found at any of its places. The finds of several
recognisers, put in order, are those of a list by place that holds all of them.
-/

namespace ChangeImpact.Imports

variable {α : Type} {recognise : Recogniser α} {before : Option Char} {s t rest : List Char}

theorem getLast?_append_or (s t : List Char) (before : Option Char) :
    (s ++ t).getLast?.or before = t.getLast?.or (s.getLast?.or before) := by
  rw [List.getLast?_append, Option.or_assoc]

theorem getLast?_cons_or (c : Char) (r : List Char) (before : Option Char) :
    (c :: r).getLast?.or before = r.getLast?.or (some c) :=
  getLast?_append_or [c] r before

theorem add_length_cons (place : Nat) (c : Char) (r : List Char) :
    place + (c :: r).length = place + 1 + r.length := by
  rw [List.length_cons]
  omega

theorem atWordStart_iff : atWordStart before = true ↔ ∀ c ∈ before, Text.isWord c = false := by
  cases before <;> simp [atWordStart]

/-- At no place of `s` is anything found, where `rest` follows. -/
def Silent (recognise : Recogniser α) (before : Option Char) (s rest : List Char) : Prop :=
  ∀ u v, u ++ v = s → v ≠ [] → recognise (u.getLast?.or before) (v ++ rest) = none

/-- In `s`, before which there is `before` and behind which `rest`, is found just `found`. -/
def Finds (recognise : Recogniser α) (before : Option Char) (s rest : List Char)
    (found : List (Nat × α)) : Prop :=
  ∀ place, findFrom recognise place 0 before (s ++ rest) =
    found.map (fun f => (place + f.1, f.2)) ++
      findFrom recognise (place + s.length) 0 (s.getLast?.or before) rest

theorem silent_nil : Silent recognise before [] rest := fun _ _ huv hv =>
  absurd (List.append_eq_nil_iff.mp huv).2 hv

theorem Silent.finds (h : Silent recognise before s rest) : Finds recognise before s rest [] := by
  induction s generalizing before with
  | nil => exact fun place => rfl
  | cons c r ih =>
    intro place
    have hhere : recognise before (c :: (r ++ rest)) = none := h [] (c :: r) rfl (by simp)
    have hrest : Silent recognise (some c) r rest := fun u v huv hv => by
      have hnone := h (c :: u) v (by rw [List.cons_append, huv]) hv
      rwa [← List.singleton_append, getLast?_append_or] at hnone
    rw [getLast?_cons_or, add_length_cons, List.cons_append, findFrom, hhere]
    exact ih hrest (place + 1)

theorem findFrom_taken (place : Nat) (before : Option Char) (s rest : List Char) :
    findFrom recognise place s.length before (s ++ rest) =
      findFrom recognise (place + s.length) 0 (s.getLast?.or before) rest := by
  induction s generalizing place before with
  | nil => rfl
  | cons c r ih =>
    rw [getLast?_cons_or, add_length_cons, List.cons_append, List.length_cons, findFrom]
    exact ih (place + 1) (some c)

theorem finds_of_find {a : α} (hne : s ≠ [])
    (h : recognise before (s ++ rest) = some (a, s.length)) :
    Finds recognise before s rest [(0, a)] := by
  obtain ⟨c, r, rfl⟩ := List.exists_cons_of_ne_nil hne
  intro place
  have htaken : findFrom recognise (place + 1) r.length (some c) (r ++ rest) = _ :=
    findFrom_taken (place + 1) (some c) r rest
  rw [getLast?_cons_or, add_length_cons, ← htaken]
  rw [List.cons_append] at h ⊢
  rw [findFrom, h]
  rfl

theorem Finds.append {found found' : List (Nat × α)}
    (hs : Finds recognise before s (t ++ rest) found)
    (ht : Finds recognise (s.getLast?.or before) t rest found') :
    Finds recognise before (s ++ t) rest
      (found ++ found'.map fun f => (s.length + f.1, f.2)) := by
  intro place
  rw [List.append_assoc, hs place, ht (place + s.length), getLast?_append_or, List.length_append,
    List.map_append, List.map_map, List.append_assoc, Nat.add_assoc]
  simp only [Function.comp_def, Nat.add_assoc]

theorem Silent.append_finds {found : List (Nat × α)}
    (hs : Silent recognise before s (t ++ rest))
    (ht : Finds recognise (s.getLast?.or before) t rest found) :
    Finds recognise before (s ++ t) rest (found.map fun f => (s.length + f.1, f.2)) := by
  have hboth := hs.finds.append ht
  rwa [List.nil_append] at hboth

theorem Silent.append (hs : Silent recognise before s (t ++ rest))
    (ht : Silent recognise (s.getLast?.or before) t rest) :
    Silent recognise before (s ++ t) rest := by
  intro u v huv hv
  rcases List.append_eq_append_iff.mp huv with ⟨w, rfl, rfl⟩ | ⟨w, rfl, rfl⟩
  · by_cases hw : w = []
    · subst hw
      rw [List.append_nil] at ht
      exact ht [] t rfl hv
    · rw [List.append_assoc]
      exact hs u w rfl hw
  · rw [getLast?_append_or]
    exact ht w v rfl hv

theorem Silent.left (h : Silent recognise before (s ++ t) rest) :
    Silent recognise before s (t ++ rest) := by
  intro u v huv hv
  have hnone := h u (v ++ t) (by rw [← List.append_assoc, huv]) (by simp [hv])
  rwa [List.append_assoc] at hnone

theorem silent_cons {c : Char} {r : List Char} : Silent recognise before (c :: r) rest ↔
    recognise before (c :: (r ++ rest)) = none ∧ Silent recognise (some c) r rest := by
  constructor
  · intro h
    refine ⟨h [] (c :: r) rfl (List.cons_ne_nil _ _), fun u v huv hv => ?_⟩
    rw [← getLast?_cons_or]
    exact h (c :: u) v (by rw [List.cons_append, huv]) hv
  · intro h u v huv hv
    cases u with
    | nil =>
      obtain rfl : v = c :: r := huv
      exact h.1
    | cons d u =>
      obtain ⟨rfl, hr⟩ := List.cons.inj huv
      rw [getLast?_cons_or]
      exact h.2 u v hr hv

/-- Either nothing is found, or there is a first place where something is. -/
theorem silent_or_first (recognise : Recogniser α) (before : Option Char) (s : List Char) :
    Silent recognise before s [] ∨ ∃ u v find, s = u ++ v ∧ Silent recognise before u v ∧ v ≠ [] ∧
      recognise (u.getLast?.or before) v = some find := by
  induction s generalizing before with
  | nil => exact .inl silent_nil
  | cons c r ih =>
    cases hhere : recognise before (c :: r) with
    | some find =>
      exact .inr ⟨[], c :: r, find, rfl, silent_nil, List.cons_ne_nil _ _, hhere⟩
    | none =>
      rcases ih (some c) with hsilent | ⟨u, v, find, rfl, hsilent, hne, hfind⟩
      · exact .inl (silent_cons.mpr ⟨by rwa [List.append_nil], hsilent⟩)
      · refine .inr ⟨c :: u, v, find, rfl, silent_cons.mpr ⟨hhere, hsilent⟩, hne, ?_⟩
        rwa [getLast?_cons_or]

theorem Silent.findAll_eq (h : Silent recognise none s []) : findAll recognise s = [] := by
  have hscan := h.finds 0
  rwa [List.append_nil] at hscan

theorem Silent.findAll_append {find : α × Nat} (h : Silent recognise none s t) (hne : t ≠ [])
    (hfind : recognise s.getLast? t = some find) :
    ∃ later, findAll recognise (s ++ t) = (s.length, find.1) :: later := by
  obtain ⟨c, r, rfl⟩ := List.exists_cons_of_ne_nil hne
  have hscan := h.finds 0
  rw [Option.or_none, findFrom, hfind, Nat.zero_add] at hscan
  exact ⟨_, hscan⟩

theorem Silent.length_le {u v : List Char} (h : Silent recognise none s t) (huv : u ++ v = s ++ t)
    (hfind : recognise u.getLast? v ≠ none) : s.length ≤ u.length := by
  rcases List.append_eq_append_iff.mp huv with ⟨w, rfl, rfl⟩ | ⟨w, rfl, -⟩
  · cases w with
    | nil => simp
    | cons c w =>
      have hnone := h u (c :: w) rfl (List.cons_ne_nil _ _)
      rw [Option.or_none] at hnone
      exact absurd hnone hfind
  · simp

/-- No find begins inside another one. -/
def Apart (recognise : Recogniser α) : Prop :=
  ∀ before u v find, u ≠ [] → recognise before (u ++ v) = some find → u.length < find.2 →
    recognise u.getLast? v = none

theorem exists_place_cons {P : Nat → Option Char → List Char → Prop} {c : Char} {r : List Char} :
    (∃ u v, u ++ v = c :: r ∧ v ≠ [] ∧ P u.length (u.getLast?.or before) v) ↔
      P 0 before (c :: r) ∨
        ∃ u v, u ++ v = r ∧ v ≠ [] ∧ P (u.length + 1) (u.getLast?.or (some c)) v := by
  constructor
  · rintro ⟨u, v, huv, hne, hplace⟩
    cases u with
    | nil =>
      obtain rfl : v = c :: r := huv
      exact .inl hplace
    | cons d u =>
      obtain ⟨rfl, hr⟩ := List.cons.inj huv
      rw [getLast?_cons_or] at hplace
      exact .inr ⟨u, v, hr, hne, hplace⟩
  · rintro (hplace | ⟨u, v, hr, hne, hplace⟩)
    · exact ⟨[], c :: r, rfl, List.cons_ne_nil _ _, hplace⟩
    · exact ⟨c :: u, v, by rw [List.cons_append, hr], hne, by rwa [getLast?_cons_or]⟩

/-- Where no find begins inside another one, all that is recognised anywhere is found, but for what
the last find in the text before has taken. -/
theorem Apart.mem_findFrom (hapart : Apart recognise) {a : α} (p place skip : Nat)
    (before : Option Char) (s : List Char)
    (htaken : ∀ u v, u ++ v = s → u.length < skip → recognise (u.getLast?.or before) v = none) :
    (p, a) ∈ findFrom recognise place skip before s ↔
      ∃ u v, u ++ v = s ∧ v ≠ [] ∧ p = place + u.length ∧
        ∃ size, recognise (u.getLast?.or before) v = some (a, size) := by
  induction s generalizing place skip before with
  | nil =>
    refine iff_of_false List.not_mem_nil ?_
    rintro ⟨u, v, huv, hne, -⟩
    exact hne (List.append_eq_nil_iff.mp huv).2
  | cons c r ih =>
    rw [exists_place_cons (P := fun length before v =>
      p = place + length ∧ ∃ size, recognise before v = some (a, size))]
    have hplace (u : List Char) : place + (u.length + 1) = place + 1 + u.length := by omega
    simp only [hplace]
    cases skip with
    | succ k =>
      have hhere : recognise before (c :: r) = none := htaken [] (c :: r) rfl (Nat.succ_pos k)
      have hrest := ih (place + 1) k (some c) fun u v huv hlt => by
        have hnone := htaken (c :: u) v (by rw [List.cons_append, huv]) (Nat.succ_lt_succ hlt)
        rwa [getLast?_cons_or] at hnone
      rw [findFrom, hrest]
      simp [hhere]
    | zero =>
      cases hhere : recognise before (c :: r) with
      | none =>
        have hrest := ih (place + 1) 0 (some c) fun _ _ _ hlt => absurd hlt (Nat.not_lt_zero _)
        rw [findFrom, hhere, hrest]
        simp
      | some find =>
        -- The scan passes over what the find takes, and no other find begins there.
        have hrest := ih (place + 1) (find.2 - 1) (some c) fun u v huv hlt => by
          rw [← huv] at hhere
          have hnone := hapart before (c :: u) v find (List.cons_ne_nil _ _) hhere
            (by rw [List.length_cons]; omega)
          rwa [← Option.or_none (o := (c :: u).getLast?), getLast?_cons_or] at hnone
        rw [findFrom, hhere, List.mem_cons, hrest]
        refine or_congr_left ⟨?_, ?_⟩
        · intro heq
          obtain ⟨rfl, rfl⟩ := Prod.mk.inj heq
          exact ⟨rfl, find.2, rfl⟩
        · rintro ⟨rfl, size, hfind⟩
          obtain rfl := Option.some.inj hfind
          rfl

theorem Apart.mem_findAll_place (hapart : Apart recognise) {s : List Char} {p : Nat} {a : α} :
    (p, a) ∈ findAll recognise s ↔ ∃ u v, u ++ v = s ∧ v ≠ [] ∧ p = u.length ∧
      ∃ size, recognise u.getLast? v = some (a, size) := by
  have hall := hapart.mem_findFrom (a := a) p 0 0 none s fun _ _ _ hlt =>
    absurd hlt (Nat.not_lt_zero _)
  simpa only [Option.or_none, Nat.zero_add, findAll] using hall

theorem Apart.mem_findAll (hapart : Apart recognise) {s : List Char} {a : α} :
    a ∈ (findAll recognise s).map (·.2) ↔
      ∃ u v, u ++ v = s ∧ v ≠ [] ∧ ∃ size, recognise u.getLast? v = some (a, size) := by
  rw [List.mem_map]
  constructor
  · rintro ⟨⟨p, _⟩, hmem, rfl⟩
    obtain ⟨u, v, huv, hne, -, hfind⟩ := hapart.mem_findAll_place.mp hmem
    exact ⟨u, v, huv, hne, hfind⟩
  · rintro ⟨u, v, huv, hne, hfind⟩
    exact ⟨_, hapart.mem_findAll_place.mpr ⟨u, v, huv, hne, rfl, hfind⟩, rfl⟩

section Lines

variable {P : List Char → Prop} {u v : List Char}

def LinesBehind (P : List Char → Prop) (s : List Char) : Prop := ∀ u v, s = u ++ '\n' :: v → P v

theorem linesBehind_of_notMem (h : '\n' ∉ s) : LinesBehind P s := by
  rintro u v rfl
  exact absurd (List.mem_append_right u List.mem_cons_self) h

theorem linesBehind_newline : LinesBehind P ('\n' :: s) ↔ P s ∧ LinesBehind P s := by
  constructor
  · intro h
    exact ⟨h [] s rfl, fun u v hs => h ('\n' :: u) v (by rw [hs, List.cons_append])⟩
  · rintro ⟨hfirst, hs⟩ (- | ⟨c, u⟩) v heq
    · rw [← (List.cons.inj heq).2]
      exact hfirst
    · exact hs u v (List.cons.inj heq).2

theorem LinesBehind.append_left (h : LinesBehind P s) (hu : '\n' ∉ u) : LinesBehind P (u ++ s) := by
  induction u with
  | nil => exact h
  | cons c r ih =>
    rw [List.mem_cons, not_or] at hu
    rintro (- | ⟨d, x⟩) v heq
    · exact absurd (List.cons.inj heq).1.symm hu.1
    · exact ih hu.2 x v (List.cons.inj heq).2

def AtLines (recognise : Recogniser α) : Prop :=
  ∀ before s, atLineStart before = false → recognise before s = none

theorem AtLines.recognise_behind (h : AtLines recognise)
    (hnone : ∀ before v, P v → recognise before (v ++ rest) = none)
    (hlines : LinesBehind P (u ++ v)) (hu : u ≠ []) :
    recognise (u.getLast?.or before) (v ++ rest) = none := by
  rcases List.eq_nil_or_concat u with rfl | ⟨w, c, rfl⟩
  · exact absurd rfl hu
  rw [List.concat_eq_append] at hlines ⊢
  rw [List.getLast?_concat, Option.some_or]
  by_cases hc : c = '\n'
  · subst hc
    rw [List.append_assoc, List.singleton_append] at hlines
    exact hnone _ v (hlines w v rfl)
  · exact h _ _ (by simpa [atLineStart] using hc)

theorem AtLines.silent_behind (h : AtLines recognise)
    (hnone : ∀ before v, P v → recognise before (v ++ rest) = none)
    (hlines : LinesBehind P (s ++ t)) (hs : s ≠ []) :
    Silent recognise (s.getLast?.or before) t rest := by
  rintro u v rfl -
  rw [← getLast?_append_or]
  rw [← List.append_assoc] at hlines
  exact h.recognise_behind hnone hlines (by simp [hs])

theorem AtLines.silent (h : AtLines recognise)
    (hnone : ∀ before v, P v → recognise before (v ++ rest) = none) (hlines : LinesBehind P s)
    (hfirst : recognise before (s ++ rest) = none) : Silent recognise before s rest := by
  rintro u v rfl -
  by_cases hu : u = []
  · rw [hu] at hfirst ⊢
    exact hfirst
  · exact h.recognise_behind hnone hlines hu

theorem AtLines.silent_line (h : AtLines recognise) (hs : '\n' ∉ s)
    (hfirst : recognise before (s ++ rest) = none) : Silent recognise before s rest :=
  h.silent (P := fun _ => False) (fun _ _ => False.elim) (linesBehind_of_notMem hs) hfirst

theorem AtLines.silent_line_behind (h : AtLines recognise) (hline : '\n' ∉ s ++ t) (hs : s ≠ []) :
    Silent recognise (s.getLast?.or before) t rest :=
  h.silent_behind (P := fun _ => False) (fun _ _ => False.elim) (linesBehind_of_notMem hline) hs

end Lines

section Placed

variable {α : Type} {k m n : Nat} {located located' : List (Nat × α)}

def Placed (n : Nat) (located : List (Nat × α)) : Prop :=
  located.Pairwise (fun a b => a.1 < b.1) ∧ ∀ f ∈ located, f.1 < n

theorem placed_nil (n : Nat) : Placed n ([] : List (Nat × α)) := ⟨.nil, List.forall_mem_nil _⟩

theorem placed_singleton {a : α} (h : 0 < n) : Placed n [(0, a)] :=
  ⟨List.pairwise_singleton _ _, List.forall_mem_singleton.mpr h⟩

theorem Placed.mono (h : Placed m located) (hle : m ≤ n) : Placed n located :=
  ⟨h.1, fun f hf => Nat.lt_of_lt_of_le (h.2 f hf) hle⟩

theorem Placed.shift (h : Placed n located) (hle : m + n ≤ k) :
    Placed k (located.map fun f => (m + f.1, f.2)) := by
  refine ⟨List.pairwise_map.mpr (h.1.imp fun hlt => Nat.add_lt_add_left hlt m), fun f hf => ?_⟩
  obtain ⟨g, hg, rfl⟩ := List.mem_map.mp hf
  exact Nat.lt_of_lt_of_le (Nat.add_lt_add_left (h.2 g hg) m) hle

theorem Placed.append (h : Placed m located) (h' : Placed n located') :
    Placed (m + n) (located ++ located'.map fun f => (m + f.1, f.2)) := by
  have hshift := h'.shift (Nat.le_refl (m + n))
  refine ⟨List.pairwise_append.mpr ⟨h.1, hshift.1, fun f hf g hg => ?_⟩, ?_⟩
  · obtain ⟨g', -, rfl⟩ := List.mem_map.mp hg
    exact Nat.lt_of_lt_of_le (h.2 f hf) (Nat.le_add_right _ _)
  · refine List.forall_mem_append.mpr ⟨fun f hf => ?_, hshift.2⟩
    exact Nat.lt_of_lt_of_le (h.2 f hf) (Nat.le_add_right _ _)

/-- Joined lists agree part by part where no part of the one is longer than that of the other. -/
theorem append_eq_append_iff_of_le {β : Type} {l l' r r' : List β} (h : l.length ≤ l'.length)
    (hr : r.length ≤ r'.length) : l ++ r = l' ++ r' ↔ l = l' ∧ r = r' := by
  refine ⟨fun heq => ?_, fun heq => by rw [heq.1, heq.2]⟩
  have hlength := congrArg List.length heq
  rw [List.length_append, List.length_append] at hlength
  exact List.append_inj heq (by omega)

end Placed

section Items

structure Joins (R : Option Char → List Char → List Char → List (List Char) → Prop → Prop) :
    Prop where
  nil : ∀ before rest, R before [] rest [] True
  newline : ∀ before rest, R before ['\n'] rest [] True
  append : ∀ {before s t rest names names' isRead isRead'}, R before s (t ++ rest) names isRead →
    R (s.getLast?.or before) t rest names' isRead' →
      R before (s ++ t) rest (names ++ names') (isRead ∧ isRead')

/-- Items on lines of their own are read one by one; each begins a line. -/
theorem Joins.items {R : Option Char → List Char → List Char → List (List Char) → Prop → Prop}
    (h : Joins R) {ι : Type} {text : ι → List Char} {names : ι → List (List Char)}
    {isRead : ι → Prop} (hitem : ∀ i before rest, atLineStart before = true →
      (∀ c ∈ rest.head?, c = '\n') → R before (text i) rest (names i) (isRead i))
    (items : List ι) {before : Option Char} (hstart : atLineStart before = true) :
    R before (['\n'].intercalate (items.map text)) [] (items.flatMap names)
      (∀ i ∈ items, isRead i) := by
  induction items generalizing before with
  | nil =>
    have hall : (∀ i ∈ ([] : List ι), isRead i) = True := by simp
    rw [hall]
    exact h.nil before []
  | cons i r ih =>
    cases r with
    | nil =>
      have hall : (∀ j ∈ [i], isRead j) = isRead i := by simp
      rw [hall, List.map_singleton, List.intercalate_singleton, List.flatMap_singleton]
      exact hitem i before [] hstart (by simp)
    | cons j r =>
      have hline := hitem i before (['\n'] ++ (['\n'].intercalate ((j :: r).map text) ++ []))
        hstart (by simp)
      -- The line break behind an item puts the next one at the beginning of a line.
      have hstart' : atLineStart ((text i ++ ['\n']).getLast?.or before) = true := by
        rw [List.getLast?_concat]
        rfl
      have hall : (∀ k ∈ i :: j :: r, isRead k) =
          ((isRead i ∧ True) ∧ ∀ k ∈ j :: r, isRead k) := by simp
      rw [hall, List.map_cons, List.map_cons, List.intercalate_cons_cons, List.flatMap_cons,
        ← List.append_nil (names i)]
      exact h.append (h.append hline (h.newline _ _)) (ih hstart')

end Items

section Together

variable {ι α : Type} {all : List ι} {recogniser : ι → Recogniser α} {before : Option Char}
  {s t u v rest : List Char} {located located' : List (Nat × α)}

variable (all recogniser before s rest located) in
/-- Together the recognisers find `located` in `s`, each find at its place and no two at one. -/
def LocatesBy : Prop :=
  ∃ found : ι → List (Nat × α),
    (∀ k : ι, Finds (recogniser k) before s rest (found k)) ∧
      (all.flatMap found).Perm located ∧
      located.Pairwise (fun a b => a.1 < b.1) ∧ ∀ f ∈ located, f.1 < s.length

theorem LocatesBy.of_silent (h : ∀ k : ι, Silent (recogniser k) before s rest) :
    LocatesBy all recogniser before s rest [] := by
  refine ⟨fun _ => [], fun k => (h k).finds, ?_, .nil, fun _ => nofun⟩
  rw [List.flatMap_eq_nil_iff.mpr fun _ _ => rfl]

theorem LocatesBy.nil : LocatesBy all recogniser before [] rest [] :=
  .of_silent fun _ => silent_nil

theorem flatMap_of_single {β : Type} (hnodup : all.Nodup) {k : ι} (hk : k ∈ all) {f : ι → List β}
    (h : ∀ j, j ≠ k → f j = []) : all.flatMap f = f k := by
  obtain ⟨l, m, rfl⟩ := List.append_of_mem hk
  have hapart := List.nodup_middle.mp hnodup
  have hnone (x : List ι) (hx : k ∉ x) : x.flatMap f = [] :=
    List.flatMap_eq_nil_iff.mpr fun j hj => h j (ne_of_mem_of_not_mem hj hx)
  rw [List.nodup_cons, List.mem_append, not_or] at hapart
  rw [List.flatMap_append, List.flatMap_cons, hnone l hapart.1.1, hnone m hapart.1.2,
    List.nil_append, List.append_nil]

theorem LocatesBy.of_find [DecidableEq ι] (hnodup : all.Nodup) {k : ι} (hk : k ∈ all) {a : α}
    (hothers : ∀ j : ι, j ≠ k → Silent (recogniser j) before (u ++ v) rest)
    (hu : Silent (recogniser k) before u (v ++ rest)) (hne : v ≠ [])
    (hv : Finds (recogniser k) (u.getLast?.or before) v rest [(0, a)]) :
    LocatesBy all recogniser before (u ++ v) rest [(u.length, a)] := by
  refine ⟨fun j => if j = k then [(u.length, a)] else [], fun j => ?_, ?_, ?_, ?_⟩
  · dsimp only
    split
    next hj =>
      subst hj
      exact hu.append_finds hv
    next hj => exact (hothers j hj).finds
  · rw [flatMap_of_single hnodup hk fun j hj => if_neg hj, if_pos rfl]
  · exact List.pairwise_singleton _ _
  · intro f hf
    rw [List.mem_singleton.mp hf, List.length_append]
    exact Nat.lt_add_of_pos_right (List.length_pos_of_ne_nil hne)

theorem LocatesBy.append (hs : LocatesBy all recogniser before s (t ++ rest) located)
    (ht : LocatesBy all recogniser (s.getLast?.or before) t rest located') :
    LocatesBy all recogniser before (s ++ t) rest
      (located ++ located'.map fun f => (s.length + f.1, f.2)) := by
  obtain ⟨found, hfinds, hperm, hplaced⟩ := hs
  obtain ⟨found', hfinds', hperm', hplaced'⟩ := ht
  refine ⟨fun k => found k ++ (found' k).map fun f => (s.length + f.1, f.2), fun k => ?_, ?_, ?_⟩
  · exact (hfinds k).append (hfinds' k)
  · refine (List.flatMap_append_perm _ _ _).symm.trans (hperm.append ?_)
    rw [← List.map_flatMap]
    exact hperm'.map _
  · rw [List.length_append]
    exact Placed.append hplaced hplaced'

theorem Finds.findAll_eq {recognise : Recogniser α} (h : Finds recognise none s [] located) :
    findAll recognise s = located := by
  have hscan := h 0
  rw [List.append_nil] at hscan
  rw [findAll, hscan]
  simp [findFrom]

theorem LocatesBy.perm (h : LocatesBy all recogniser none s [] located) :
    (all.flatMap fun k => findAll (recogniser k) s).Perm located ∧
      located.Pairwise fun a b => a.1 < b.1 := by
  obtain ⟨found, hfinds, hperm, hplaces, -⟩ := h
  simp only [fun k => (hfinds k).findAll_eq]
  exact ⟨hperm, hplaces⟩

end Together

theorem pairwise_mergeSort_place {α : Type} (l : List (Nat × α)) :
    (l.mergeSort fun a b => a.1 ≤ b.1).Pairwise fun a b => a.1 ≤ b.1 := by
  refine (List.pairwise_mergeSort ?_ ?_ l).imp of_decide_eq_true
  · intro a b c hab hbc
    exact decide_eq_true (Nat.le_trans (of_decide_eq_true hab) (of_decide_eq_true hbc))
  · intro a b
    rw [← Bool.decide_or]
    exact decide_eq_true (Nat.le_total _ _)

theorem inOrder_of_perm {found located : List (Nat × List Char)} (h : found.Perm located)
    (hplaces : located.Pairwise fun a b => a.1 < b.1) : inOrder found = located.map (·.2) := by
  have hdistinct : (located.map (·.1)).Nodup :=
    List.pairwise_map.mpr (hplaces.imp fun hlt => Nat.ne_of_lt hlt)
  have hsame : (found.mergeSort fun a b => a.1 ≤ b.1).Perm located :=
    (List.mergeSort_perm _ _).trans h
  have heq : (found.mergeSort fun a b => a.1 ≤ b.1) = located := by
    refine hsame.eq_of_pairwise ?_ (pairwise_mergeSort_place found) (hplaces.imp Nat.le_of_lt)
    intro a b ha hb hab hba
    exact List.inj_on_of_nodup_map hdistinct (hsame.subset ha) hb (Nat.le_antisymm hab hba)
  rw [inOrder, heq]

end ChangeImpact.Imports
