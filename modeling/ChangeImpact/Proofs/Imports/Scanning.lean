import ChangeImpact.Imports.Extractor
import ChangeImpact.Proofs.Data.Spans

/-!
# What a scan finds

A scan of a text is a scan of its beginning and then one of what follows, where the last find of
the beginning may have taken some of it. A place that no earlier find has taken is looked at with
everything that follows it.
-/

namespace ChangeImpact.Imports

open Text

section Finds

variable {α : Type} (recognise : Recogniser α)

def reach (rest : List Char) (skip : Nat) (before : Option Char) : List Char → Nat
  | [] => skip
  | c :: r =>
    match skip with
    | k + 1 => reach rest k (some c) r
    | 0 =>
      match recognise before (c :: r ++ rest) with
      | none => reach rest 0 (some c) r
      | some (_, size) => reach rest (size - 1) (some c) r

theorem exists_findFrom_append (s rest : List Char) (place skip : Nat) (before : Option Char) :
    ∃ found, findFrom recognise place skip before (s ++ rest) =
      found ++ findFrom recognise (place + s.length) (reach recognise rest skip before s)
        (s.getLast?.or before) rest := by
  induction s generalizing place skip before with
  | nil => exact ⟨[], rfl⟩
  | cons c r ih =>
    have hplace : place + (c :: r).length = place + 1 + r.length := by
      rw [List.length_cons]
      omega
    have hlast : (c :: r).getLast?.or before = r.getLast?.or (some c) := by
      rw [List.getLast?_cons]
      cases r.getLast? <;> rfl
    rw [hplace, hlast]
    cases skip with
    | succ k => exact ih (place + 1) k (some c)
    | zero =>
      rw [List.cons_append, findFrom, reach, List.cons_append]
      cases recognise before (c :: (r ++ rest)) with
      | none => exact ih (place + 1) 0 (some c)
      | some find =>
        obtain ⟨found, hfound⟩ := ih (place + 1) (find.2 - 1) (some c)
        exact ⟨(place, find.1) :: found, congrArg _ hfound⟩

variable {recognise}

theorem mem_findAll {above rest : List Char} {a : α} {size : Nat} (hne : rest ≠ [])
    (hreach : reach recognise rest 0 none above = 0)
    (hfind : recognise above.getLast? rest = some (a, size)) :
    (above.length, a) ∈ findAll recognise (above ++ rest) := by
  obtain ⟨found, hfound⟩ := exists_findFrom_append recognise above rest 0 0 none
  rw [findAll, hfound, hreach, Option.or_none, Nat.zero_add]
  obtain ⟨c, r, rfl⟩ := List.exists_cons_of_ne_nil hne
  rw [findFrom, hfind]
  exact List.mem_append_right _ List.mem_cons_self

theorem findAll_map {β : Type} (f : α → β) (recognise : Recogniser α) (s : List Char) :
    findAll (fun before s => (recognise before s).map fun (a, size) => (f a, size)) s =
      (findAll recognise s).map fun (place, a) => (place, f a) := by
  have hfrom (place skip : Nat) (before : Option Char) :
      findFrom (fun before s => (recognise before s).map fun (a, size) => (f a, size)) place skip
        before s = (findFrom recognise place skip before s).map fun (place, a) => (place, f a) := by
    induction s generalizing place skip before with
    | nil => rfl
    | cons c r ih =>
      cases skip with
      | succ k => exact ih (place + 1) k (some c)
      | zero =>
        rw [findFrom, findFrom]
        cases recognise before (c :: r) with
        | none => exact ih (place + 1) 0 (some c)
        | some find =>
          rw [Option.map_some, List.map_cons]
          exact congrArg _ (ih (place + 1) (find.2 - 1) (some c))
  exact hfrom 0 0 none

theorem mem_inOrder {found : List (Nat × List Char)} {text : List Char} :
    text ∈ inOrder found ↔ ∃ place, (place, text) ∈ found := by
  rw [inOrder, List.mem_map]
  constructor
  · intro h
    obtain ⟨⟨place, _⟩, hmem, rfl⟩ := h
    exact ⟨place, (List.mergeSort_perm _ _).subset hmem⟩
  · intro h
    obtain ⟨place, hmem⟩ := h
    exact ⟨_, (List.mergeSort_perm _ _).symm.subset hmem, rfl⟩

end Finds

section Steps

structure Gap where
  text : List Char
  isMargin : ∀ c ∈ text, isMargin c = true
  ne_nil : text ≠ []

theorem Gap.head (g : Gap) (s : List Char) :
    ∃ c, (g.text ++ s).head? = some c ∧ Imports.isMargin c = true := by
  obtain ⟨c, r, hg⟩ := List.exists_cons_of_ne_nil g.ne_nil
  refine ⟨c, ?_, g.isMargin c ?_⟩
  · rw [hg]
    rfl
  · rw [hg]
    exact List.mem_cons_self

theorem Gap.takeWhile_isEmpty (gap : Gap) (s : List Char) :
    ((gap.text ++ s).takeWhile Imports.isMargin).isEmpty = false := by
  obtain ⟨d, t, hd⟩ := List.exists_cons_of_ne_nil gap.ne_nil
  have hmargin := gap.isMargin d (hd ▸ List.mem_cons_self)
  rw [hd, List.cons_append, List.takeWhile_cons, hmargin, if_pos rfl]
  rfl

theorem margin?_gap (g : Gap) {s : List Char} (hs : ∀ c ∈ s.head?, isMargin c = false) :
    margin? (g.text ++ s) = some s := by
  rw [margin?, takeWhile_append_of_head g.isMargin hs, dropWhile_append_of_head g.isMargin hs,
    if_neg (by simpa using g.ne_nil)]

theorem dottedName?_append {module s : List Char} (hne : module ≠ [])
    (hmodule : ∀ c ∈ module, (isWord c || c == '.') = true)
    (hs : ∀ c ∈ s.head?, (isWord c || c == '.') = false) :
    dottedName? (module ++ s) = some (module, s) := by
  rw [dottedName?, takeWhile_append_of_head hmodule hs, dropWhile_append_of_head hmodule hs,
    if_neg (by simpa using hne)]

theorem isMargin_iff {c : Char} : isMargin c = true ↔ c = ' ' ∨ c = '\t' := by
  simp [isMargin]

section Margins

variable {s rest : List Char}

theorem skipMargin_of_head (hs : ∀ c ∈ s.head?, isMargin c = false) : skipMargin s = s :=
  dropWhile_append_of_head (List.forall_mem_nil _) hs

theorem margin?_of_head (hs : ∀ c ∈ s.head?, isMargin c = false) : margin? s = none := by
  have hspan : s.takeWhile isMargin = [] := takeWhile_append_of_head (List.forall_mem_nil _) hs
  rw [margin?, hspan]
  rfl

theorem skipMargin_append (hrest : ∀ c ∈ rest.head?, isMargin c = false) :
    skipMargin (s ++ rest) = skipMargin s ++ rest := by
  simp only [skipMargin, List.dropWhile_append]
  split
  next h =>
    rw [List.isEmpty_iff.mp h, List.nil_append]
    exact skipMargin_of_head hrest
  next => rfl

theorem isMargin_of_newline (hrest : ∀ c ∈ rest.head?, c = '\n') :
    ∀ c ∈ rest.head?, isMargin c = false := fun c hc => by
  rw [hrest c hc]
  rfl

theorem prefix_skipMargin_of_append {w : List Char} (hw : '\n' ∉ w)
    (hrest : ∀ c ∈ rest.head?, c = '\n') (h : w <+: skipMargin (s ++ rest)) :
    w <+: skipMargin s := by
  rw [skipMargin_append (isMargin_of_newline hrest)] at h
  obtain ⟨t, ht⟩ := h
  rcases List.append_eq_append_iff.mp ht with ⟨r, hr, -⟩ | ⟨r, rfl, hlater⟩
  · exact ⟨r, hr.symm⟩
  · cases r with
    | nil => exact (List.append_nil (skipMargin s)).symm ▸ List.prefix_refl _
    | cons c r =>
      have hc := hrest c (by rw [hlater]; rfl)
      exact absurd (by simp [hc]) hw

end Margins

theorem Gap.newline_notMem (g : Gap) : '\n' ∉ g.text := fun h =>
  absurd (g.isMargin _ h) (by decide)

end Steps

theorem specifiers_empty (l : Language) : specifiers l "" = [] := by
  have hscan {α : Type} (recognise : Recogniser α) : findAll recognise [] = [] := rfl
  cases l with
  | ecmascript => simp [specifiers, EcmaScript.specifiers, EcmaScript.forms, hscan, inOrder]
  | python => simp [specifiers, Python.specifiers, Python.each, hscan, inOrder]
  | go => simp [specifiers, Go.specifiers, hscan, inOrder]

theorem standard_eq_ok (l : Language) (s : List Char) :
    Extractors.standard.run (some l) (String.ofList s) = .ok (specifiers l (String.ofList s)) := by
  rw [Extractors.run]
  split
  next hempty => rw [eq_of_beq hempty, specifiers_empty]
  next => rfl

end ChangeImpact.Imports
