import ChangeImpact.Proofs.Imports.Segments
import ChangeImpact.Proofs.Text.Words
import ChangeImpact.Risk.Warning

/-!
# Calls in a line

A call of a name opens with a bracket behind it, blanks aside; it is awaited if the word `await` and
blanks stand before it. The scan of a line for awaited calls finds all of them, whatever stands
around them. The scan for a call of a given name finds the first, awaited or not.
-/

namespace ChangeImpact.Risk.Warning

open Text Imports

def isCallee (c : Char) : Bool := isNamePart c || c == '.'

def IsName (name : List Char) : Prop :=
  ∃ c r, name = c :: r ∧ isNameStart c = true ∧ ∀ d ∈ r, isCallee d = true

def IsGap (gap : List Char) : Prop := ∀ c ∈ gap, isBlank c = true

def BeginsCall (name s : List Char) : Prop :=
  ∃ gap behind, IsGap gap ∧ s = name ++ (gap ++ '(' :: behind)

def EndsAwaiting (s : List Char) : Prop :=
  ∃ before gap, atWordStart before.getLast? = true ∧ gap ≠ [] ∧ IsGap gap ∧
    s = before ++ ("await".toList ++ gap)

def AwaitsCall (name line : List Char) : Prop :=
  ∃ before rest, before ++ rest = line ∧ EndsAwaiting before ∧ BeginsCall name rest

structure CallsAt (name before rest : List Char) : Prop where
  apart : ∀ c ∈ before.getLast?, isCallee c = false
  begins : BeginsCall name rest

def CallsUnawaited (name line : List Char) : Prop :=
  ∃ before rest, before ++ rest = line ∧ CallsAt name before rest ∧ ¬ EndsAwaiting before

/-- There are calls of `name` in the line, and the first of them is not awaited. -/
def FirstUnawaited (name line : List Char) : Prop :=
  ∃ before rest, before ++ rest = line ∧ CallsAt name before rest ∧ ¬ EndsAwaiting before ∧
    ∀ u v, u ++ v = line → CallsAt name u v → before.length ≤ u.length

theorem FirstUnawaited.callsUnawaited {name line : List Char} (h : FirstUnawaited name line) :
    CallsUnawaited name line := by
  obtain ⟨before, rest, hline, hcalls, hplain, -⟩ := h
  exact ⟨before, rest, hline, hcalls, hplain⟩

variable {name line before rest gap s : List Char} {c : Char}

section Characters

theorem isCallee_of_isBlank (h : isBlank c = true) : isCallee c = false := by
  have hword := isWord_of_isBlank h
  rw [isCallee, isNamePart, hword]
  rw [Bool.false_or, Bool.or_eq_false_iff, beq_eq_false_iff_ne, beq_eq_false_iff_ne]
  refine ⟨?_, ?_⟩
  · rintro rfl
    exact absurd h (by decide)
  · rintro rfl
    exact absurd h (by decide)

theorem isCallee_of_isNameStart (h : isNameStart c = true) : isCallee c = true := by
  have hall : ∀ n < 128, isNameStart (Char.ofNat n) = true → isCallee (Char.ofNat n) = true := by
    decide
  have hlt : c.toNat < 128 := by
    simp only [isNameStart, Bool.or_eq_true, Bool.and_eq_true, decide_eq_true_eq, beq_iff_eq,
      Char.le_def, UInt32.le_iff_toNat_le] at h
    rcases h with ((h | h) | rfl) | rfl
    · exact Nat.lt_of_le_of_lt h.2 (by decide)
    · exact Nat.lt_of_le_of_lt h.2 (by decide)
    · decide
    · decide
  have hc := hall c.toNat hlt
  rw [Char.ofNat_toNat] at hc
  exact hc h

theorem isBlank_of_isCallee (h : isCallee c = true) : isBlank c = false := by
  cases hblank : isBlank c with
  | false => rfl
  | true => rw [isCallee_of_isBlank hblank] at h; cases h

theorem isCallee_await : ∀ c ∈ "await".toList, isCallee c = true := List.all_eq_true.mp (by decide)

theorem isWord_await : ∀ c ∈ "await".toList, isWord c = true := List.all_eq_true.mp (by decide)

theorem IsName.isCallee (h : IsName name) : ∀ c ∈ name, isCallee c = true := by
  obtain ⟨c, r, rfl, hc, hr⟩ := h
  exact List.forall_mem_cons.mpr ⟨isCallee_of_isNameStart hc, hr⟩

theorem IsName.head (h : IsName name) (s : List Char) :
    ∃ c r, name ++ s = c :: r ∧ isNameStart c = true ∧ isBlank c = false := by
  obtain ⟨c, r, rfl, hc, -⟩ := h
  exact ⟨c, r ++ s, rfl, hc, isBlank_of_isCallee (isCallee_of_isNameStart hc)⟩

end Characters

section Brackets

theorem exists_gap (s : List Char) : ∃ gap, IsGap gap ∧ gap ++ skipBlanks s = s :=
  ⟨s.takeWhile isBlank, fun _ hc => List.mem_takeWhile_imp hc, List.takeWhile_append_dropWhile⟩

theorem skipBlanks_gap (hgap : IsGap gap) (hs : ∀ c ∈ s.head?, isBlank c = false) :
    skipBlanks (gap ++ s) = s :=
  dropWhile_append_of_head hgap hs

theorem after?_bracket (hgap : IsGap gap) (behind : List Char) :
    after? ['('] (skipBlanks (gap ++ '(' :: behind)) = some behind := by
  rw [skipBlanks_gap hgap (forall_head?_cons.mpr (by decide))]
  exact after?_append ['('] behind

theorem exists_gap_bracket {behind : List Char} (h : after? ['('] (skipBlanks s) = some behind) :
    ∃ gap, IsGap gap ∧ s = gap ++ '(' :: behind := by
  obtain ⟨gap, hgap, hs⟩ := exists_gap s
  rw [after?_eq_some.mp h] at hs
  exact ⟨gap, hgap, hs.symm⟩

theorem isCallee_head_bracket (hgap : IsGap gap) (behind : List Char) :
    ∀ c ∈ (gap ++ '(' :: behind).head?, isCallee c = false := by
  cases gap with
  | nil => exact forall_head?_cons.mpr (by decide)
  | cons d r => exact forall_head?_cons.mpr (isCallee_of_isBlank (hgap d List.mem_cons_self))

end Brackets

section Awaited

theorem awaitedCall_steps {before : Option Char} {size : Nat} :
    awaitedCall before s = some (name, size) ↔ atWordStart before = true ∧
      ∃ r, after? "await".toList s = some r ∧ r.head?.any isBlank = true ∧
        ∃ c, (skipBlanks r).head? = some c ∧ isNameStart c = true ∧
          ∃ behind, after? ['('] (skipBlanks ((skipBlanks r).dropWhile isCallee)) = some behind ∧
            (skipBlanks r).takeWhile isCallee = name ∧ s.length - behind.length = size := by
  simp only [awaitedCall, Option.bind_eq_bind, Option.ite_none_right_eq_some,
    Option.bind_eq_some_iff, Option.ite_none_left_eq_some, Bool.not_eq_true, Bool.not_eq_false',
    Option.pure_def, Option.some.injEq, Prod.mk.injEq]
  rfl

theorem isName_takeWhile (hhead : s.head? = some c) (hc : isNameStart c = true) :
    IsName (s.takeWhile isCallee) := by
  obtain ⟨r, rfl⟩ := List.head?_eq_some_iff.mp hhead
  exact ⟨c, r.takeWhile isCallee, List.takeWhile_cons_of_pos (isCallee_of_isNameStart hc), hc,
    fun _ hd => List.mem_takeWhile_imp hd⟩

theorem awaitedCall_eq_some {before : Option Char} {size : Nat} :
    awaitedCall before s = some (name, size) ↔ atWordStart before = true ∧ IsName name ∧
      ∃ toName toBracket behind, toName ≠ [] ∧ IsGap toName ∧ IsGap toBracket ∧
        s = "await".toList ++ (toName ++ (name ++ (toBracket ++ '(' :: behind))) ∧
        size = s.length - behind.length := by
  rw [awaitedCall_steps]
  constructor
  · rintro ⟨hstart, r, hr, hblank, c, hc, hname, behind, hbehind, rfl, rfl⟩
    obtain ⟨toBracket, htoBracket, hrest⟩ := exists_gap_bracket hbehind
    obtain ⟨toName, htoName, hgap⟩ := exists_gap r
    refine ⟨hstart, isName_takeWhile hc hname, toName, toBracket, behind, ?_, htoName, htoBracket,
      ?_, rfl⟩
    · -- The blank that follows the word is not what the name begins with.
      rintro rfl
      rw [← hgap, List.nil_append, hc, Option.any_some,
        isBlank_of_isCallee (isCallee_of_isNameStart hname)] at hblank
      cases hblank
    · rw [after?_eq_some.mp hr, ← hrest, List.takeWhile_append_dropWhile, hgap]
  · rintro ⟨hstart, hname, toName, toBracket, behind, hne, htoName, htoBracket, rfl, rfl⟩
    obtain ⟨b, toName', rfl⟩ := List.exists_cons_of_ne_nil hne
    obtain ⟨c, r, hcr, hc, hblank⟩ := hname.head (toBracket ++ '(' :: behind)
    have hskip : skipBlanks (b :: toName' ++ (name ++ (toBracket ++ '(' :: behind))) =
        name ++ (toBracket ++ '(' :: behind) :=
      skipBlanks_gap htoName (by rw [hcr]; exact forall_head?_cons.mpr hblank)
    have hhead := isCallee_head_bracket htoBracket behind
    refine ⟨hstart, _, after?_append _ _, htoName b List.mem_cons_self, c, ?_, hc, behind, ?_, ?_,
      rfl⟩
    · rw [hskip, hcr, List.head?_cons]
    · rw [hskip, dropWhile_append_of_head hname.isCallee hhead, after?_bracket htoBracket]
    · rw [hskip, takeWhile_append_of_head hname.isCallee hhead]

theorem awaitedCall_callee {p : List Char} (hp : ∀ c ∈ p, isCallee c = true) (hgap : IsGap gap)
    (rest : List Char) (before : Option Char) :
    awaitedCall before (p ++ (gap ++ '(' :: rest)) = none := by
  rw [Option.eq_none_iff_forall_ne_some]
  rintro ⟨name, size⟩ h
  obtain ⟨-, hname, toName, toBracket, behind, hne, htoName, -, hs, -⟩ := awaitedCall_eq_some.mp h
  obtain ⟨c, r, hcr, hc, hblank⟩ := hname.head (toBracket ++ '(' :: behind)
  rw [hcr] at hs
  -- Both texts begin with characters of names and go on with another one, so that they agree there.
  have hhead : ∀ d ∈ (toName ++ c :: r).head?, isCallee d = false := by
    obtain ⟨b, toName', rfl⟩ := List.exists_cons_of_ne_nil hne
    exact forall_head?_cons.mpr (isCallee_of_isBlank (htoName b List.mem_cons_self))
  have hdrop := congrArg (List.dropWhile isCallee) hs
  rw [dropWhile_append_of_head hp (isCallee_head_bracket hgap rest),
    dropWhile_append_of_head isCallee_await hhead] at hdrop
  have hskip := congrArg skipBlanks hdrop
  rw [skipBlanks_gap hgap (forall_head?_cons.mpr (by decide)),
    skipBlanks_gap htoName (forall_head?_cons.mpr hblank)] at hskip
  obtain rfl := (List.cons.inj hskip).1
  exact absurd hc (by decide)

theorem awaitedCall_blank (hc : isBlank c = true) (before : Option Char) :
    awaitedCall before (c :: s) = none := by
  rw [Option.eq_none_iff_forall_ne_some]
  rintro ⟨name, size⟩ h
  obtain ⟨-, -, toName, toBracket, behind, -, -, -, hs, -⟩ := awaitedCall_eq_some.mp h
  obtain rfl := (List.cons.inj hs).1
  exact absurd hc (by decide)

/-- Behind the word `await` no other call is awaited, up to and with the opening bracket. -/
theorem awaitedCall_within {u v toName toBracket behind : List Char} (before : Option Char)
    (htoName : IsGap toName) (hname : IsName name) (htoBracket : IsGap toBracket)
    (hs : u ++ v = toName ++ (name ++ (toBracket ++ '(' :: behind)))
    (hlt : behind.length < v.length) : awaitedCall before v = none := by
  have hcallee := awaitedCall_callee hname.isCallee htoBracket behind before
  rcases List.append_eq_append_iff.mp hs with ⟨w, hw, rfl⟩ | ⟨u, -, hs⟩
  · cases w with
    | nil => exact hcallee
    | cons c w => exact awaitedCall_blank (htoName c (by simp [hw])) before
  rcases List.append_eq_append_iff.mp hs.symm with ⟨w, hw, rfl⟩ | ⟨u, -, hs⟩
  · exact awaitedCall_callee (fun c hc => hname.isCallee c (by simp [hw, hc])) htoBracket behind
      before
  rcases List.append_eq_append_iff.mp hs.symm with ⟨w, hw, rfl⟩ | ⟨u, -, hs⟩
  · have hgap : IsGap _ := fun c hc => htoBracket c (hw ▸ List.mem_append_right _ hc)
    exact awaitedCall_callee (p := []) nofun hgap behind before
  cases u with
  | nil =>
    obtain rfl : v = '(' :: behind := hs.symm
    have hgap : IsGap [] := nofun
    exact awaitedCall_callee (p := []) nofun hgap behind before
  | cons c u =>
    have hlength := congrArg List.length hs
    rw [List.length_cons, List.length_append, List.length_cons] at hlength
    omega

theorem apart_awaitedCall : Apart awaitedCall := by
  rintro before u v ⟨name, size⟩ hu h hlt
  obtain ⟨-, hname, toName, toBracket, behind, -, htoName, htoBracket, hs, rfl⟩ :=
    awaitedCall_eq_some.mp h
  rcases List.append_eq_append_iff.mp hs with ⟨w, hw, rfl⟩ | ⟨w, rfl, hwithin⟩
  · -- The place is in the word `await`, behind one of its characters.
    rw [Option.eq_none_iff_forall_ne_some]
    rintro ⟨_, _⟩ hinside
    have hlast := (awaitedCall_eq_some.mp hinside).1
    have hword := isWord_await _ (hw ▸ List.mem_append_left _ (List.getLast_mem hu))
    rw [List.getLast?_eq_some_getLast hu, atWordStart, Option.any_some, hword] at hlast
    cases hlast
  · refine awaitedCall_within _ htoName hname htoBracket hwithin.symm ?_
    simp only [List.length_append] at hlt
    omega

end Awaited

section Given

theorem call_eq_some {before : Option Char} {find : Unit × Nat} :
    call name before s = some find ↔ (∀ c ∈ before, isCallee c = false) ∧
      ∃ gap behind, IsGap gap ∧ s = name ++ (gap ++ '(' :: behind) ∧
        find.2 = s.length - behind.length := by
  have hapart : (before.any fun c => isNamePart c || c == '.') = false ↔
      ∀ c ∈ before, isCallee c = false := by
    cases before with
    | none => simp
    | some c => simp [isCallee]
  rw [call, ← hapart]
  constructor
  · intro h
    split at h
    next => cases h
    next hbefore =>
      obtain ⟨r, hr, h⟩ := Option.bind_eq_some_iff.mp h
      obtain ⟨behind, hbehind, h⟩ := Option.bind_eq_some_iff.mp h
      obtain rfl := Option.some.inj h
      obtain ⟨gap, hgap, rfl⟩ := exists_gap_bracket hbehind
      exact ⟨eq_false_of_ne_true hbefore, gap, behind, hgap, after?_eq_some.mp hr, rfl⟩
  · rintro ⟨hbefore, gap, behind, hgap, rfl, hsize⟩
    rw [hbefore, if_neg Bool.false_ne_true, after?_append]
    simp only [Option.bind_eq_bind, Option.bind_some, after?_bracket hgap]
    rw [← hsize]
    rfl

theorem callsAt_iff : CallsAt name before rest ↔
    ∃ find, call name before.getLast? rest = some find := by
  simp only [call_eq_some, Option.mem_def]
  constructor
  · rintro ⟨hapart, gap, behind, hgap, hrest⟩
    exact ⟨((), _), hapart, gap, behind, hgap, hrest, rfl⟩
  · rintro ⟨_, hapart, gap, behind, hgap, hrest, -⟩
    exact ⟨hapart, gap, behind, hgap, hrest⟩

theorem BeginsCall.ne_nil (h : BeginsCall name rest) : rest ≠ [] := by
  obtain ⟨gap, behind, -, rfl⟩ := h
  simp

theorem length_await : "await".toList.length = 5 := rfl

theorem trimRight_awaiting (hgap : IsGap gap) (before : List Char) :
    trimRight isBlank (before ++ ("await".toList ++ gap)) = before ++ "await".toList := by
  have hword : before ++ "await".toList = before ++ "awai".toList ++ 't' :: [] := by simp
  rw [← List.append_assoc, trimRight_append hgap, hword, trimRight_append_cons (by decide)]
  rfl

theorem endsAwaiting_iff : endsAwaiting s = true ↔ EndsAwaiting s := by
  simp only [endsAwaiting, Bool.and_eq_true, decide_eq_true_eq, List.isSuffixOf_iff_suffix]
  constructor
  · rintro ⟨⟨hshort, before, hbefore⟩, hstart⟩
    obtain ⟨gap, hgap, hs⟩ := exists_trimRight isBlank s
    rw [← hbefore] at hs hshort hstart
    refine ⟨before, gap, ?_, ?_, hgap, ?_⟩
    · rwa [List.length_append, length_await, Nat.add_sub_cancel, List.take_left] at hstart
    · rintro rfl
      rw [List.append_nil] at hs
      rw [hs] at hshort
      exact absurd hshort (Nat.lt_irrefl _)
    · rw [← hs, List.append_assoc]
  · rintro ⟨before, gap, hstart, hne, hgap, rfl⟩
    rw [trimRight_awaiting hgap, List.length_append, length_await, Nat.add_sub_cancel,
      List.take_left]
    refine ⟨⟨?_, List.suffix_append _ _⟩, hstart⟩
    have hpos := List.length_pos_of_ne_nil hne
    simp only [List.length_append, length_await]
    omega

theorem CallsAt.call_ne_none (h : CallsAt name before rest) :
    call name before.getLast? rest ≠ none :=
  Option.isSome_iff_ne_none.mp (Option.isSome_iff_exists.mpr (callsAt_iff.mp h))

theorem callsPlainly_iff : callsPlainly name line = true ↔ FirstUnawaited name line := by
  rcases silent_or_first (call name) none line with hsilent | ⟨u, v, find, rfl, hsilent, hne, hfind⟩
  · rw [callsPlainly, hsilent.findAll_eq]
    refine iff_of_false Bool.false_ne_true ?_
    rintro ⟨before, rest, hline, hcalls, -⟩
    have hnone := hsilent before rest hline hcalls.begins.ne_nil
    rw [Option.or_none, List.append_nil] at hnone
    exact hcalls.call_ne_none hnone
  · rw [Option.or_none] at hfind
    obtain ⟨later, hlater⟩ := hsilent.findAll_append hne hfind
    have hfirst : callsPlainly name (u ++ v) = !endsAwaiting u := by
      rw [callsPlainly, hlater]
      exact congrArg (fun before => !endsAwaiting before) List.take_left
    have hcalls : CallsAt name u v := callsAt_iff.mpr ⟨find, hfind⟩
    rw [hfirst, Bool.not_eq_true', ← Bool.not_eq_true, endsAwaiting_iff]
    constructor
    · intro hplain
      exact ⟨u, v, rfl, hcalls, hplain, fun _ _ hline hother =>
        hsilent.length_le hline hother.call_ne_none⟩
    · rintro ⟨before, rest, hline, hother, hplain, hleast⟩
      have hlength : before.length = u.length :=
        Nat.le_antisymm (hleast u v rfl hcalls) (hsilent.length_le hline hother.call_ne_none)
      rwa [← (List.append_inj hline hlength).1]

end Given

end ChangeImpact.Risk.Warning
