import ChangeImpact.Proofs.Imports.Forms
import ChangeImpact.Proofs.Imports.Go.Entries
import ChangeImpact.Proofs.Imports.Shifted

/-!
# The ends of lines do not show in what is imported

The imports of ECMAScript and of Go are the same whether a line ends with a newline or with a
carriage return before it. A carriage return is a blank of ECMAScript, where newlines are blanks
too; it is no margin of a line of Go, and a quoted name ends before the newline that follows it.
-/

namespace ChangeImpact.Imports

open Text

namespace EcmaScript

theorem passes_skipBlanks : Passes fun s => some (skipBlanks s) := passes_dropWhile (by decide)

theorem quoted?_eq_some {s name r : List Char} : quoted? s = some (name, r) ↔
    ∃ x e, s = x ++ e :: r ∧ (∃ q, x = q :: name ∧ isQuote q = true) ∧ name ≠ [] ∧
      (∀ c ∈ name, isPlain c = true) ∧ isQuote e = true := by
  constructor
  · intro h
    cases s with
    | nil => cases h
    | cons q t =>
      rw [quoted?] at h
      split at h
      · cases h
      next hopen =>
        rw [Bool.or_eq_true, not_or, Bool.not_eq_true', Bool.not_eq_false, List.isEmpty_iff] at hopen
        cases hrest : t.dropWhile isPlain with
        | nil => rw [hrest] at h; cases h
        | cons e rest =>
          rw [hrest] at h
          dsimp only at h
          split at h
          next he =>
            obtain ⟨rfl, rfl⟩ := Prod.mk.inj (Option.some.inj h)
            refine ⟨q :: t.takeWhile isPlain, e, ?_, ⟨q, rfl, hopen.1⟩, hopen.2,
              fun c hc => List.mem_takeWhile_imp hc, he⟩
            rw [List.cons_append, ← hrest, List.takeWhile_append_dropWhile]
          · cases h
  · intro h
    obtain ⟨_, e, rfl, ⟨q, rfl, hq⟩, hne, hname, he⟩ := h
    have hend : ∀ c ∈ (e :: r).head?, isPlain c = false :=
      forall_head?_cons.mpr (by simp [isPlain, he])
    rw [List.cons_append, quoted?, takeWhile_append_of_head hname hend,
      dropWhile_append_of_head hname hend]
    simp [hq, hne, he]

theorem follows_quoted? : Follows id quoted? := by
  refine follows_of_line (fun _ _ _ => quoted?_eq_some) ?_
  intro name x e hquoted
  obtain ⟨⟨q, rfl, hq⟩, -, hname, he⟩ := hquoted
  have hquote (c : Char) (hc : isQuote c = true) : c ≠ '\n' ∧ c ≠ '\r' := by
    constructor <;> rintro rfl <;> exact absurd hc (by decide)
  refine ⟨?_, hquote e he⟩
  rw [List.mem_cons, not_or]
  exact ⟨(hquote q hq).1.symm, fun hmem => absurd (hname _ hmem) (by decide)⟩

theorem follows_named? : Follows id fun r => quoted? (skipBlanks r) :=
  passes_skipBlanks.follows follows_quoted?

theorem follows_fromQuoted? (before : Option Char) : Follows id (fromQuoted? before) := by
  have hfrom : Follows id fun s => (after? "from".toList s).bind fun r => quoted? (skipBlanks r) :=
    (passes_after? (by decide) (by decide)).follows follows_named?
  unfold fromQuoted?
  cases atWordStart before with
  | true => exact hfrom
  | false => exact ⟨fun _ => rfl, nofun⟩

theorem fromQuoted?_of_head {c : Char} (hc : c ≠ 'f') (before : Option Char) (s : List Char) :
    fromQuoted? before (c :: s) = none := by
  rw [fromQuoted?]
  split
  · exact Option.bind_eq_none_iff.mpr fun r hr => absurd hr (by simp [after?, Ne.symm hc])
  · rfl

theorem clause?_of_head {c : Char} (hc : c ≠ 'f') (hclause : inClause c = true)
    (before : Option Char) (s : List Char) : clause? before (c :: s) = clause? (some c) s := by
  rw [clause?, fromQuoted?_of_head hc, hclause]
  rfl

theorem follows_clause? (before : Option Char) : Follows id (clause? before) where
  read_eq s := by
    induction s generalizing before with
    | nil => rfl
    | cons c r ih =>
      by_cases hc : c = '\n'
      · subst hc
        rw [withReturns_newline, clause?_of_head (by decide) (by decide),
          clause?_of_head (by decide) (by decide), clause?_of_head (by decide) (by decide), ih]
      · have hfrom := (follows_fromQuoted? before).read_eq (c :: r)
        rw [withReturns_cons hc] at hfrom ⊢
        rw [clause?, clause?, hfrom]
        cases fromQuoted? before (c :: r) with
        | some found => rfl
        | none =>
          cases inClause c with
          | true => exact ih (some c)
          | false => rfl
  suffix s name r h := by
    induction s generalizing before with
    | nil => cases h
    | cons c t ih =>
      rw [clause?] at h
      cases hfrom : fromQuoted? before (c :: t) with
      | some found =>
        rw [hfrom] at h
        obtain rfl := Option.some.inj h
        exact (follows_fromQuoted? before).suffix _ name r hfrom
      | none =>
        rw [hfrom] at h
        dsimp only at h
        split at h
        · obtain ⟨u, -, rfl⟩ := ih (some c) h
          exact ⟨c :: u, List.cons_ne_nil c u, rfl⟩
        · cases h

theorem follows_clauseAfter? : Follows id clauseAfter? where
  read_eq s := by
    cases s with
    | nil => rfl
    | cons c r =>
      by_cases hc : c = '\n'
      · subst hc
        rw [withReturns_newline, clauseAfter?, clauseAfter?, if_pos (by decide), if_pos (by decide),
          clause?_of_head (by decide) (by decide), (follows_clause? (some '\n')).read_eq]
      · rw [withReturns_cons hc, clauseAfter?, clauseAfter?]
        cases isBlank c with
        | true => exact (follows_clause? (some c)).read_eq r
        | false => rfl
  suffix s name r h := by
    cases s with
    | nil => cases h
    | cons c t =>
      rw [clauseAfter?] at h
      split at h
      · obtain ⟨u, -, rfl⟩ := (follows_clause? (some c)).suffix t name r h
        exact ⟨c :: u, List.cons_ne_nil c u, rfl⟩
      · cases h

theorem passes_mark {c : Char} (hnewline : c ≠ '\n') (hreturn : c ≠ '\r') :
    Passes fun s => after? [c] (skipBlanks s) :=
  passes_skipBlanks.comp (passes_after? (by simpa using hnewline.symm) (by simpa using hreturn.symm))

theorem follows_argument? : Follows id argument? := by
  have heq : argument? = fun s => (after? ['('] (skipBlanks s)).bind fun r =>
      (quoted? (skipBlanks r)).bind fun found =>
        (after? [')'] (skipBlanks found.2)).map (found.1, ·) := by
    funext s
    simp only [argument?, Option.map_eq_bind]
    rfl
  rw [heq]
  exact (passes_mark (by decide) (by decide)).follows
    (follows_named?.passes (passes_mark (by decide) (by decide)))

theorem follows_rest? (k : Shape) : Follows id k.rest? := by
  cases k with
  | clause => exact follows_clauseAfter?
  | bare => exact follows_named?
  | required | awaited => exact follows_argument?

theorem form_eq (words : List String)
    (rest? : List Char → Option (List Char × List Char)) : form words rest? =
      readAt atWordStart fun s => words.findSome? fun w => (after? w.toList s).bind rest? := by
  funext before s
  rw [form, readAt]
  congr 1
  induction words with
  | nil => rfl
  | cons w words ih =>
    rw [List.findSome?_cons, List.findSome?_cons, ih]
    cases after? w.toList s with
    | none => rfl
    | some r =>
      rw [Option.bind_some]
      cases hrest : rest? r <;> simp [hrest]

theorem ignores_recogniser (k : Shape) : Ignores k.recogniser fun _ => id := by
  have hwords (w : String) (hw : w ∈ k.words) (c : Char) (hc : isWord c = false) :
      c ∉ w.toList := fun hmem => by
    rw [(k.words_isWord w hw).2 c hmem] at hc
    cases hc
  rw [Shape.recogniser, form_eq]
  refine Follows.ignores (Follows.findSome? fun w hw => ?_) (fun r => ?_) _
  · exact (passes_after? (hwords w hw '\n' (by decide)) (hwords w hw '\r' (by decide))).follows
      (follows_rest? k)
  · refine List.findSome?_eq_none_iff.mpr fun w hw => ?_
    obtain ⟨c, l, hcl⟩ := List.exists_cons_of_ne_nil (k.words_isWord w hw).1
    have hc : '\n' ≠ c := by
      rintro rfl
      exact hwords w hw '\n' (by decide) (hcl ▸ List.mem_cons_self)
    rw [hcl, after?_of_head (by simpa using hc), Option.bind_none]

theorem specifiers_withReturns (s : List Char) : specifiers (withReturns s) = specifiers s := by
  have hforms : (forms.flatMap fun f => findAll f (withReturns s)) =
      (forms.flatMap fun f => findAll f s).map fun found => (shifted s found.1, found.2) := by
    rw [forms_eq, List.flatMap_map, List.flatMap_map, List.map_flatMap]
    congr 1
    funext k
    exact (ignores_recogniser k).findAll_withReturns s
  rw [specifiers, hforms, inOrder_map (strictMono_shifted s), specifiers]

end EcmaScript

namespace Go

theorem passes_skipMargin : Passes fun s => some (skipMargin s) := passes_dropWhile (by decide)

theorem passes_margin? : Passes margin? where
  skip_eq s := by
    rw [margin?, margin?, takeWhile_withReturns (by decide) (by decide),
      dropWhile_withReturns (by decide)]
    split <;> rfl
  suffix s r h := by
    rw [margin?] at h
    split at h
    · cases h
    · exact Option.some.inj h ▸ List.dropWhile_suffix isMargin

theorem follows_dottedName? : Follows id dottedName? where
  read_eq s := by
    have hspan : (withReturns s).takeWhile inName = s.takeWhile inName :=
      takeWhile_withReturns (by decide) (by decide) s
    have hrest : (withReturns s).dropWhile inName = withReturns (s.dropWhile inName) :=
      dropWhile_withReturns (by decide) s
    change (if ((withReturns s).takeWhile inName).isEmpty then none
      else some ((withReturns s).takeWhile inName, (withReturns s).dropWhile inName)) =
      Option.map _ (if (s.takeWhile inName).isEmpty then none
        else some (s.takeWhile inName, s.dropWhile inName))
    rw [hspan, hrest]
    split <;> rfl
  suffix s name r h := by
    rw [dottedName?] at h
    split at h
    · cases h
    next hne =>
      obtain ⟨rfl, rfl⟩ := Prod.mk.inj (Option.some.inj h)
      exact ⟨_, fun hnil => hne (List.isEmpty_iff.mpr hnil), List.takeWhile_append_dropWhile⟩

theorem quoted?_eq_some {s path r : List Char} : quoted? s = some (path, r) ↔
    ∃ x e, s = x ++ e :: r ∧ x = '"' :: path ∧ path ≠ [] ∧ (∀ c ∈ path, isPlain c = true) ∧
      e = '"' := by
  constructor
  · intro h
    unfold quoted? at h
    split at h
    next t =>
      dsimp only at h
      split at h
      · cases h
      next hne =>
        split at h
        next rest hrest =>
          obtain ⟨rfl, rfl⟩ := Prod.mk.inj (Option.some.inj h)
          refine ⟨_, '"', ?_, rfl, fun hnil => hne (List.isEmpty_iff.mpr hnil),
            fun c hc => List.mem_takeWhile_imp hc, rfl⟩
          rw [List.cons_append, ← hrest, List.takeWhile_append_dropWhile]
        · cases h
    · cases h
  · intro h
    obtain ⟨_, _, rfl, rfl, hne, hpath, rfl⟩ := h
    have hend : ∀ c ∈ ('"' :: r).head?, isPlain c = false := forall_head?_cons.mpr (by decide)
    have hspan : (path ++ '"' :: r).takeWhile (fun c => c != '"' && c != '\n') = path :=
      takeWhile_append_of_head hpath hend
    have hclosing : (path ++ '"' :: r).dropWhile (fun c => c != '"' && c != '\n') = '"' :: r :=
      dropWhile_append_of_head hpath hend
    rw [List.cons_append]
    simp only [quoted?, hspan, hclosing]
    exact if_neg (by simpa using hne)

theorem follows_quoted? : Follows id quoted? := by
  refine follows_of_line (fun _ _ _ => quoted?_eq_some) ?_
  intro path x e hquoted
  obtain ⟨rfl, -, hpath, rfl⟩ := hquoted
  refine ⟨?_, by decide, by decide⟩
  rw [List.mem_cons, not_or]
  exact ⟨by decide, fun hmem => absurd (hpath _ hmem) (by decide)⟩

theorem follows_spec? : Follows id spec? where
  read_eq s := by
    rw [spec?, spec?, follows_dottedName?.read_eq]
    cases dottedName? s with
    | none => exact follows_quoted?.read_eq s
    | some found => exact (passes_margin?.follows follows_quoted?).read_eq found.2
  suffix s path r h := by
    rw [spec?] at h
    cases hname : dottedName? s with
    | none =>
      rw [hname] at h
      exact follows_quoted?.suffix s path r h
    | some found =>
      rw [hname] at h
      obtain ⟨x, -, rfl⟩ := follows_dottedName?.suffix s found.1 found.2 hname
      obtain ⟨u, hu, hr⟩ := (passes_margin?.follows follows_quoted?).suffix found.2 path r h
      exact ⟨x ++ u, by simp [hu], by rw [List.append_assoc, hr]⟩

theorem passes_import : Passes fun s => after? "import".toList (skipMargin s) :=
  passes_skipMargin.comp (passes_after? (by decide) (by decide))

theorem spec?_newline (r : List Char) : spec? ('\n' :: r) = none :=
  spec?_of_head (forall_head?_cons.mpr (by decide))

theorem import_newline (r : List Char) :
    after? "import".toList (skipMargin ('\n' :: r)) = none := by
  rw [skipMargin_of_head (forall_head?_cons.mpr (by decide))]
  exact after?_of_head (forall_head?_cons.mpr (by decide)) _

theorem ignores_single : Ignores single fun _ => id := by
  have heq : single = readAt atLineStart fun s =>
      (after? "import".toList (skipMargin s)).bind fun r => (margin? r).bind spec? := by
    funext before s
    simp only [single, readAt, Option.bind_eq_bind, Option.map_eq_bind, Option.bind_assoc]
    rfl
  rw [heq]
  refine Follows.ignores (passes_import.follows (passes_margin?.follows follows_spec?)) ?_ _
  intro r
  rw [import_newline, Option.bind_none]

theorem ignores_entry : Ignores entry fun _ => id := by
  have heq : entry = readAt atLineStart fun s => (some (skipMargin s)).bind spec? := by
    funext before s
    simp only [entry, readAt, Option.bind_eq_bind, Option.map_eq_bind, Option.bind_some]
    rfl
  rw [heq]
  refine Follows.ignores (passes_skipMargin.follows follows_spec?) ?_ _
  intro r
  rw [skipMargin_of_head (forall_head?_cons.mpr (by decide)), Option.bind_some, spec?_newline]

def opened? (s : List Char) : Option (List Char) :=
  (after? "import".toList (skipMargin s)).bind fun r => after? ['('] (skipMargin r)

theorem passes_opened? : Passes opened? :=
  passes_import.comp (passes_skipMargin.comp (passes_after? (by decide) (by decide)))

theorem block_eq (before : Option Char) (s : List Char) : block before s =
    if atLineStart before then (opened? s).bind fun r =>
      (cut? ')' r).map fun found =>
        ((s.length - r.length, found.1), s.length - found.2.length)
    else none := by
  simp only [block, opened?, Option.bind_eq_bind, Option.map_eq_bind, Option.bind_assoc]
  rfl

theorem eq_append_cons_of_cut? {sep : Char} {s a b : List Char} (h : cut? sep s = some (a, b)) :
    s = a ++ sep :: b := by
  induction s generalizing a with
  | nil => cases h
  | cons c r ih =>
    rw [cut?] at h
    split at h
    next hc =>
      obtain ⟨rfl, rfl⟩ := Prod.mk.inj (Option.some.inj h)
      rw [eq_of_beq hc, List.nil_append]
    · obtain ⟨⟨a', b'⟩, hcut, heq⟩ := Option.map_eq_some_iff.mp h
      obtain ⟨rfl, rfl⟩ := Prod.mk.inj heq
      rw [ih hcut, List.cons_append]

theorem exists_of_block {before : Option Char} {s : List Char} {found : Nat × List Char}
    {size : Nat} (h : block before s = some (found, size)) : ∃ x rest,
      opened? s = some (found.2 ++ ')' :: rest) ∧ x ++ (found.2 ++ ')' :: rest) = s ∧
        found.1 = x.length ∧ size = (x ++ found.2 ++ [')']).length := by
  rw [block_eq] at h
  split at h
  · obtain ⟨r, hopen, h⟩ := Option.bind_eq_some_iff.mp h
    obtain ⟨⟨inside, rest⟩, hcut, heq⟩ := Option.map_eq_some_iff.mp h
    obtain ⟨rfl, rfl⟩ := Prod.mk.inj heq
    obtain rfl := eq_append_cons_of_cut? hcut
    obtain ⟨x, rfl⟩ := passes_opened?.suffix _ _ hopen
    refine ⟨x, rest, hopen, rfl, ?_, ?_⟩
    · simp
    · simp only [List.length_append, List.length_cons, List.length_nil]
      omega
  · cases h

def widened (s : List Char) (found : Nat × List Char) : Nat × List Char :=
  (shifted s found.1, withReturns found.2)

theorem ignores_block : Ignores block widened where
  newline before r := by
    rw [block_eq, opened?, import_newline, Option.bind_none, Option.bind_none, ite_self]
  recognise_eq before s := by
    rw [block_eq, block_eq, passes_opened?.skip_eq]
    split
    · cases hopen : opened? s with
      | none => rfl
      | some r =>
        rw [Option.map_some, Option.bind_some, Option.bind_some,
          cut?_withReturns (by decide) (by decide)]
        cases hcut : cut? ')' r with
        | none => rfl
        | some found =>
          obtain ⟨x, rfl⟩ := passes_opened?.suffix s r hopen
          have hr := eq_append_cons_of_cut? hcut
          have hrest : x ++ r = (x ++ found.1 ++ [')']) ++ found.2 := by
            rw [hr]
            simp
          simp only [Option.map_some, widened, length_sub_withReturns]
          rw [hrest, length_sub_withReturns]
    · rfl
  size before s found size h := by
    obtain ⟨x, rest, -, rfl, -, rfl⟩ := exists_of_block h
    simp only [List.length_append, List.length_cons, List.length_nil]
    omega

theorem shifted_inside {s : List Char} {place : Nat} {found : Nat × List Char}
    (h : (place, found) ∈ findAll block s) {at_ : Nat} {path : List Char}
    (hentry : (at_, path) ∈ findAll entry found.2) :
    shifted s place + shifted (s.drop place) found.1 + shifted found.2 at_ =
      shifted s (place + found.1 + at_) := by
  obtain ⟨hplace, before, size, hfind⟩ := mem_findAll_drop h
  obtain ⟨hat, -⟩ := mem_findAll_drop hentry
  obtain ⟨x, rest, -, hs, hx, -⟩ := exists_of_block hfind
  obtain ⟨u, v, rfl, rfl⟩ : ∃ u v, u ++ v = s ∧ u.length = place :=
    ⟨s.take place, s.drop place, List.take_append_drop _ _,
      List.length_take_of_le (Nat.le_of_lt hplace)⟩
  rw [List.drop_left] at hs ⊢
  subst hs
  have hinside : shifted (found.2 ++ ')' :: rest) at_ = shifted found.2 at_ := by
    rw [shifted, shifted, List.take_append_of_le_length (Nat.le_of_lt hat)]
  rw [shifted_length, hx, shifted_length, Nat.add_assoc u.length, shifted_length_add,
    shifted_length_add, hinside, Nat.add_assoc]

def inBlocks (s : List Char) : List (Nat × List Char) :=
  (findAll block s).flatMap fun (place, offset, inside) =>
    (findAll entry inside).map fun (at_, path) => (place + offset + at_, path)

theorem specifiers_eq (s : List Char) :
    specifiers s = inOrder (findAll single s ++ inBlocks s) := rfl

theorem inBlocks_withReturns (s : List Char) :
    inBlocks (withReturns s) = (inBlocks s).map fun found => (shifted s found.1, found.2) := by
  rw [inBlocks, inBlocks, ignores_block.findAll_withReturns, List.flatMap_map, List.map_flatMap]
  refine List.flatMap_congr fun f hf => ?_
  simp only [widened, ignores_entry.findAll_withReturns, List.map_map]
  refine List.map_congr_left fun e he => ?_
  exact congrArg (·, e.2) (shifted_inside hf he)

theorem specifiers_withReturns (s : List Char) : specifiers (withReturns s) = specifiers s := by
  rw [specifiers_eq, inBlocks_withReturns, ignores_single.findAll_withReturns, specifiers_eq]
  simp only [id]
  rw [← List.map_append, inOrder_map (strictMono_shifted s)]

end Go

/-- With carriage returns before its newlines a text imports what it imports without them. -/
theorem run_withReturns (s : String) :
    Extractors.standard.run (some .ecmascript) (.ofList (withReturns s.toList)) =
        Extractors.standard.run (some .ecmascript) s ∧
      Extractors.standard.run (some .go) (.ofList (withReturns s.toList)) =
        Extractors.standard.run (some .go) s := by
  have hrun (l : Language) : Extractors.standard.run (some l) s = .ok (specifiers l s) := by
    simpa using standard_eq_ok l s.toList
  rw [standard_eq_ok, standard_eq_ok, hrun, hrun]
  simp only [specifiers, String.toList_ofList, EcmaScript.specifiers_withReturns,
    Go.specifiers_withReturns, and_self]

/-- In Python a carriage return is taken for the names that are missing. -/
example : Python.specifiers "from . import \n".toList = [] ∧
    Python.specifiers (withReturns "from . import \n".toList) = [['.']] := by decide +kernel

end ChangeImpact.Imports
