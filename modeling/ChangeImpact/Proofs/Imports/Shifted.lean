import ChangeImpact.Proofs.Imports.Segments
import ChangeImpact.Proofs.Text.Returns
import Mathlib.Order.Monotone.Basic

/-!
# A scan of lines that end with a carriage return

Carriage returns before the newlines shift the places of a text, and keep their order. A recogniser
ignores them if it recognises at a shifted place what it recognises without them; then a scan of
the whole text finds the same. Recognisers are put together from readers that pass over something
and readers that give something, and it is enough that each of these follows the returns.
-/

namespace ChangeImpact.Imports

open Text

section Places

def shifted (s : List Char) (place : Nat) : Nat := place + (s.take place).count '\n'

theorem shifted_length_add (u v : List Char) (place : Nat) :
    shifted (u ++ v) (u.length + place) = (withReturns u).length + shifted v place := by
  rw [shifted, shifted, List.take_length_add_append, List.count_append, length_withReturns]
  omega

theorem shifted_length (u v : List Char) : shifted (u ++ v) u.length = (withReturns u).length :=
  shifted_length_add u v 0

theorem length_sub_withReturns (u r : List Char) :
    (withReturns (u ++ r)).length - (withReturns r).length =
      shifted (u ++ r) ((u ++ r).length - r.length) := by
  have hsize : (u ++ r).length - r.length = u.length := by
    rw [List.length_append, Nat.add_sub_cancel]
  rw [hsize, shifted_length, withReturns_append, List.length_append, Nat.add_sub_cancel]

theorem strictMono_shifted (s : List Char) : StrictMono (shifted s) := by
  intro m n hlt
  have hcount : (s.take m).count '\n' ≤ (s.take n).count '\n' :=
    (List.take_sublist_take_left (Nat.le_of_lt hlt)).count_le _
  rw [shifted, shifted]
  omega

theorem inOrder_map {f : Nat → Nat} (hf : StrictMono f) (found : List (Nat × List Char)) :
    inOrder (found.map fun a => (f a.1, a.2)) = inOrder found := by
  have hsort := List.map_mergeSort (l := found) (f := fun a => (f a.1, a.2))
    (r := fun a b => decide (a.1 ≤ b.1)) (s := fun a b => decide (a.1 ≤ b.1))
    fun a _ b _ => by simp only [hf.le_iff_le]
  rw [inOrder, ← hsort, List.map_map, inOrder]
  rfl

end Places

section Scans

variable {α : Type} {recognise : Recogniser α} {value : List Char → α → α}

/-- A recogniser that finds the same in a text with carriage returns, but for the places in what it
finds. Nothing is found at the end of a line. -/
structure Ignores (recognise : Recogniser α) (value : List Char → α → α) : Prop where
  newline : ∀ before r, recognise before ('\n' :: r) = none
  recognise_eq : ∀ before s, recognise before (withReturns s) =
    (recognise before s).map fun (a, size) => (value s a, shifted s size)
  size : ∀ before s a size, recognise before s = some (a, size) → 0 < size ∧ size ≤ s.length

theorem Ignores.silent (h : Ignores recognise value) {before : Option Char} {s rest : List Char}
    (hs : Silent recognise before s rest) :
    Silent recognise before (withReturns s) (withReturns rest) := by
  induction s generalizing before with
  | nil => exact silent_nil
  | cons c r ih =>
    obtain ⟨hhere, hrest⟩ := silent_cons.mp hs
    have hnone := h.recognise_eq before (c :: (r ++ rest))
    rw [hhere, Option.map_none] at hnone
    by_cases hc : c = '\n'
    · subst hc
      rw [withReturns_newline, withReturns_append] at hnone
      rw [withReturns_newline]
      exact silent_cons.mpr ⟨hnone, silent_cons.mpr ⟨h.newline _ _, ih hrest⟩⟩
    · rw [withReturns_cons hc, withReturns_append] at hnone
      rw [withReturns_cons hc]
      exact silent_cons.mpr ⟨hnone, ih hrest⟩

def FindsBoth (recognise : Recogniser α) (value : List Char → α → α) (before : Option Char)
    (s rest : List Char) (found : List (Nat × α)) : Prop :=
  Finds recognise before s rest found ∧
    Finds recognise before (withReturns s) (withReturns rest)
      (found.map fun f => (shifted (s ++ rest) f.1, value ((s ++ rest).drop f.1) f.2))

variable {before : Option Char} {s t rest : List Char} {found found' : List (Nat × α)}

theorem Ignores.findsBoth_of_silent (h : Ignores recognise value)
    (hs : Silent recognise before s rest) : FindsBoth recognise value before s rest [] :=
  ⟨hs.finds, (h.silent hs).finds⟩

theorem Ignores.findsBoth_of_find (h : Ignores recognise value) {a : α} (hne : s ≠ [])
    (hfind : recognise before (s ++ rest) = some (a, s.length)) :
    FindsBoth recognise value before s rest [(0, a)] := by
  have hfind' := h.recognise_eq before (s ++ rest)
  rw [hfind, Option.map_some] at hfind'
  simp only [shifted_length, withReturns_append] at hfind'
  exact ⟨finds_of_find hne hfind, finds_of_find (withReturns_ne_nil hne) hfind'⟩

theorem FindsBoth.append (hs : FindsBoth recognise value before s (t ++ rest) found)
    (ht : FindsBoth recognise value (s.getLast?.or before) t rest found') :
    FindsBoth recognise value before (s ++ t) rest
      (found ++ found'.map fun f => (s.length + f.1, f.2)) := by
  refine ⟨hs.1.append ht.1, ?_⟩
  have hs' := hs.2
  have ht' := ht.2
  rw [withReturns_append] at hs'
  rw [← getLast?_withReturns] at ht'
  have hboth := hs'.append ht'
  rw [List.map_map] at hboth
  rw [withReturns_append, List.map_append, List.map_map, List.append_assoc]
  simp only [Function.comp_def, shifted_length_add, List.drop_length_add_append]
  exact hboth

theorem Ignores.exists_findsBoth (h : Ignores recognise value) (before : Option Char)
    (s : List Char) : ∃ found, FindsBoth recognise value before s [] found := by
  induction hn : s.length using Nat.strong_induction_on generalizing before s with
  | h n ih =>
    rcases silent_or_first recognise before s with hsilent | ⟨u, v, find, rfl, hu, hne, hfind⟩
    · exact ⟨[], h.findsBoth_of_silent hsilent⟩
    · -- The find takes the beginning of `v`, and the scan goes on behind it.
      obtain ⟨a, size⟩ := find
      obtain ⟨hpos, hle⟩ := h.size _ _ _ _ hfind
      obtain ⟨x, y, rfl, rfl⟩ : ∃ x y, v = x ++ y ∧ x.length = size :=
        ⟨v.take size, v.drop size, (List.take_append_drop _ _).symm, List.length_take_of_le hle⟩
      have hx : x ≠ [] := List.ne_nil_of_length_pos hpos
      have hshort : y.length < n := by
        rw [List.length_append, List.length_append] at hn
        omega
      obtain ⟨found, hfound⟩ := ih y.length hshort (x.getLast?.or (u.getLast?.or before)) y rfl
      rw [← List.append_nil y] at hfind
      have hfirst := h.findsBoth_of_find hx hfind
      refine ⟨_, (h.findsBoth_of_silent ?_).append (hfirst.append hfound)⟩
      rwa [List.append_nil]

theorem mem_findFrom_drop (place skip : Nat) {found : Nat × α}
    (h : found ∈ findFrom recognise place skip before s) :
    ∃ u v, u ++ v = s ∧ v ≠ [] ∧ found.1 = place + u.length ∧
      ∃ before size, recognise before v = some (found.2, size) := by
  induction s generalizing place skip before with
  | nil => cases h
  | cons c r ih =>
    have hlater (skip : Nat) (h : found ∈ findFrom recognise (place + 1) skip (some c) r) :
        ∃ u v, u ++ v = c :: r ∧ v ≠ [] ∧ found.1 = place + u.length ∧
          ∃ before size, recognise before v = some (found.2, size) := by
      obtain ⟨u, v, rfl, hne, hplace, hfind⟩ := ih (place + 1) skip h
      refine ⟨c :: u, v, rfl, hne, ?_, hfind⟩
      rw [hplace, List.length_cons]
      omega
    cases skip with
    | succ k => exact hlater k h
    | zero =>
      rw [findFrom] at h
      cases hhere : recognise before (c :: r) with
      | none =>
        rw [hhere] at h
        exact hlater 0 h
      | some find =>
        rw [hhere] at h
        rcases List.mem_cons.mp h with rfl | h
        · exact ⟨[], c :: r, rfl, List.cons_ne_nil c r, rfl, before, find.2, hhere⟩
        · exact hlater _ h

theorem mem_findAll_drop {place : Nat} {a : α} (h : (place, a) ∈ findAll recognise s) :
    place < s.length ∧ ∃ before size, recognise before (s.drop place) = some (a, size) := by
  obtain ⟨u, v, rfl, hne, rfl, hfind⟩ := mem_findFrom_drop 0 0 h
  rw [Nat.zero_add, List.drop_left, List.length_append]
  exact ⟨Nat.lt_add_of_pos_right (List.length_pos_of_ne_nil hne), hfind⟩

theorem Ignores.findAll_withReturns (h : Ignores recognise value) (s : List Char) :
    findAll recognise (withReturns s) =
      (findAll recognise s).map fun f => (shifted s f.1, value (s.drop f.1) f.2) := by
  obtain ⟨found, hfound, hfound'⟩ := h.exists_findsBoth none s
  rw [List.append_nil] at hfound'
  rw [hfound.findAll_eq, Finds.findAll_eq hfound']

end Scans

section Readers

variable {α : Type} {carry : α → α} {read : List Char → Option (α × List Char)}
  {skip skip' : List Char → Option (List Char)}

/-- Passes over something before what is read, and that the same way in both texts. -/
structure Passes (skip : List Char → Option (List Char)) : Prop where
  skip_eq : ∀ s, skip (withReturns s) = (skip s).map withReturns
  suffix : ∀ s r, skip s = some r → r <:+ s

/-- Reads the same from both texts, but for what `carry` does to it. -/
structure Follows (carry : α → α) (read : List Char → Option (α × List Char)) : Prop where
  read_eq : ∀ s, read (withReturns s) = (read s).map fun (a, r) => (carry a, withReturns r)
  suffix : ∀ s a r, read s = some (a, r) → ∃ u, u ≠ [] ∧ u ++ r = s

theorem passes_dropWhile {p : Char → Bool} (hp : p '\r' = p '\n') :
    Passes fun s => some (s.dropWhile p) where
  skip_eq s := congrArg some (dropWhile_withReturns hp s)
  suffix _ _ h := Option.some.inj h ▸ List.dropWhile_suffix p

theorem passes_after? {w : List Char} (hnewline : '\n' ∉ w) (hreturn : '\r' ∉ w) :
    Passes (after? w) where
  skip_eq := after?_withReturns hnewline hreturn
  suffix _ _ h := ⟨w, (after?_eq_some.mp h).symm⟩

theorem Passes.comp (h : Passes skip) (h' : Passes skip') :
    Passes fun s => (skip s).bind skip' where
  skip_eq s := by
    rw [h.skip_eq]
    cases skip s with
    | none => rfl
    | some r => exact h'.skip_eq r
  suffix s r hr := by
    obtain ⟨t, ht, hr⟩ := Option.bind_eq_some_iff.mp hr
    exact (h'.suffix t r hr).trans (h.suffix s t ht)

theorem Passes.follows (h : Passes skip) (h' : Follows carry read) :
    Follows carry fun s => (skip s).bind read where
  read_eq s := by
    rw [h.skip_eq]
    cases skip s with
    | none => rfl
    | some r => exact h'.read_eq r
  suffix s a r hr := by
    obtain ⟨t, ht, hr⟩ := Option.bind_eq_some_iff.mp hr
    obtain ⟨u, hu, rfl⟩ := h'.suffix t a r hr
    obtain ⟨x, rfl⟩ := h.suffix s _ ht
    exact ⟨x ++ u, by simp [hu], List.append_assoc x u r⟩

theorem Follows.passes (h : Follows carry read) (h' : Passes skip) :
    Follows carry fun s => (read s).bind fun (a, r) => (skip r).map (a, ·) where
  read_eq s := by
    rw [h.read_eq]
    cases read s with
    | none => rfl
    | some found =>
      simp only [Option.map_some, Option.bind_some, h'.skip_eq, Option.map_map, Function.comp_def]
  suffix s a r hr := by
    obtain ⟨⟨b, t⟩, ht, hr⟩ := Option.bind_eq_some_iff.mp hr
    obtain ⟨r', hr', heq⟩ := Option.map_eq_some_iff.mp hr
    obtain ⟨rfl, rfl⟩ := Prod.mk.inj heq
    obtain ⟨u, hu, rfl⟩ := h.suffix s b t ht
    obtain ⟨x, rfl⟩ := h'.suffix t r' hr'
    exact ⟨u ++ x, by simp [hu], List.append_assoc u x r'⟩

theorem Follows.findSome? {ι : Type} {reads : ι → List Char → Option (α × List Char)}
    {all : List ι} (h : ∀ i ∈ all, Follows carry (reads i)) :
    Follows carry fun s => all.findSome? fun i => reads i s where
  read_eq s := by
    induction all with
    | nil => rfl
    | cons i all ih =>
      obtain ⟨hi, hall⟩ := List.forall_mem_cons.mp h
      rw [List.findSome?_cons, List.findSome?_cons, hi.read_eq, ih hall]
      cases reads i s <;> rfl
  suffix s a r hr := by
    obtain ⟨i, hi, hr⟩ := List.exists_of_findSome?_eq_some hr
    exact (h i hi).suffix s a r hr

theorem follows_of_line {P : α → List Char → Char → Prop}
    (hread : ∀ s a r, read s = some (a, r) ↔ ∃ x e, s = x ++ e :: r ∧ P a x e)
    (hline : ∀ a x e, P a x e → '\n' ∉ x ∧ e ≠ '\n' ∧ e ≠ '\r') : Follows id read where
  read_eq s := by
    ext ⟨a, r⟩
    rw [hread, Option.map_eq_some_iff]
    constructor
    · intro h
      obtain ⟨x, e, hreturns, hP⟩ := h
      obtain ⟨hx, hnewline, hreturn⟩ := hline a x e hP
      obtain ⟨t, hs, rfl⟩ := (withReturns_eq_append_cons hx hnewline hreturn).mp hreturns
      exact ⟨(a, t), (hread s a t).mpr ⟨x, e, hs, hP⟩, rfl⟩
    · intro h
      obtain ⟨⟨b, t⟩, ht, heq⟩ := h
      obtain ⟨rfl, rfl⟩ := Prod.mk.inj heq
      obtain ⟨x, e, hs, hP⟩ := (hread s b t).mp ht
      obtain ⟨hx, hnewline, hreturn⟩ := hline b x e hP
      exact ⟨x, e, (withReturns_eq_append_cons hx hnewline hreturn).mpr ⟨t, hs, rfl⟩, hP⟩
  suffix s a r h := by
    obtain ⟨x, e, rfl, -⟩ := (hread s a r).mp h
    exact ⟨x ++ [e], by simp, by simp⟩

def readAt (isPlace : Option Char → Bool) (read : List Char → Option (α × List Char)) :
    Recogniser α := fun before s =>
  if isPlace before then (read s).map fun (a, r) => (a, s.length - r.length) else none

theorem Follows.ignores (h : Follows carry read) (hnewline : ∀ r, read ('\n' :: r) = none)
    (isPlace : Option Char → Bool) : Ignores (readAt isPlace read) fun _ => carry where
  newline before r := by rw [readAt, hnewline, Option.map_none, ite_self]
  recognise_eq before s := by
    rw [readAt, readAt, h.read_eq]
    split
    · cases hread : read s with
      | none => rfl
      | some find =>
        obtain ⟨u, -, rfl⟩ := h.suffix s find.1 find.2 hread
        simp only [Option.map_some, length_sub_withReturns]
    · rfl
  size before s a size hfind := by
    rw [readAt] at hfind
    split at hfind
    · obtain ⟨⟨b, r⟩, hread, heq⟩ := Option.map_eq_some_iff.mp hfind
      obtain ⟨rfl, rfl⟩ := Prod.mk.inj heq
      obtain ⟨u, hu, rfl⟩ := h.suffix s b r hread
      have hpos := List.length_pos_of_ne_nil hu
      rw [List.length_append]
      omega
    · cases hfind

end Readers

end ChangeImpact.Imports
