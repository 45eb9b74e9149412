import ChangeImpact.Change.Diff
import ChangeImpact.Proofs.Text.Integer
import ChangeImpact.Proofs.Text.Lines
import ChangeImpact.Proofs.Text.Strip

/-!
# Written diffs

A diff as it is written: for each file a line that begins its section, further lines of its
header, and hunks, whose headers count the lines below them. The lines of a hunk hold any text,
and so does what stands behind the numbers of its header. `lines_render` says which lines are
read of a written diff.
-/

namespace ChangeImpact.Diff

open Text

/-- What a line of a hunk is: a line of both files, of one of them, or a note. -/
inductive Mark where
  | context
  | added
  | removed
  | note
  deriving Repr, DecidableEq

namespace Mark

def char : Mark → Char
  | context => ' '
  | added => '+'
  | removed => '-'
  | note => '\\'

def isOld (m : Mark) : Bool := m == context || m == removed

def isNew (m : Mark) : Bool := m == context || m == added

end Mark

structure WrittenLine where
  mark : Mark
  content : List Char
  deriving Repr, DecidableEq

structure WrittenHunk where
  oldStart : Nat
  newStart : Nat
  shortOld : Bool := false
  shortNew : Bool := false
  heading : List Char := []
  lines : List WrittenLine
  deriving Repr, DecidableEq

/-- The header lines of a file are lines, and begin neither a file nor a hunk. -/
structure WrittenFile where
  name : List Char
  headers : List (List Char)
  hunks : List WrittenHunk
  name_line : ∀ c ∈ name, isLineEnd c = false
  headers_line : ∀ s ∈ headers, ∀ c ∈ s, isLineEnd c = false
  headers_plain : ∀ s ∈ headers, sectionMark.isPrefixOf s = false ∧ header? s = none

def countText (short : Bool) (n : Nat) : Option (List Char) :=
  if short && n == 1 then none else some (Decimal.digits n)

def rangeText (start : Nat) (count : Option (List Char)) : List Char :=
  Decimal.digits start ++
    match count with
    | some s => ',' :: s
    | none => []

namespace WrittenLine

def text (l : WrittenLine) : List Char := l.mark.char :: l.content

def read (l : WrittenLine) : List (List Char) :=
  (l.mark.char :: first l.content) :: strays l.content

end WrittenLine

namespace WrittenHunk

variable (h : WrittenHunk)

def oldCount : Nat := h.lines.countP (·.mark.isOld)

def newCount : Nat := h.lines.countP (·.mark.isNew)

def numbersText : List Char :=
  "@@ -".toList ++ rangeText h.oldStart (countText h.shortOld h.oldCount) ++ " +".toList ++
    rangeText h.newStart (countText h.shortNew h.newCount) ++ " @@".toList

def written : List (List Char) := (h.numbersText ++ h.heading) :: h.lines.map WrittenLine.text

def body : List (List Char) := strays h.heading ++ h.lines.flatMap WrittenLine.read

def read : List (List Char) := (h.numbersText ++ first h.heading) :: h.body

/-- The numbers of the added lines in the new file, whose lines are counted on from the first. -/
def numbers : List Int :=
  ((h.lines.filter (·.mark.isNew)).zipIdx h.newStart).filterMap fun (l, n) =>
    if l.mark = .added then some (n : Int) else none

end WrittenHunk

namespace WrittenFile

variable (f : WrittenFile)

def firstLine : List Char := sectionMark ++ f.name

def written : List (List Char) := f.firstLine :: f.headers ++ f.hunks.flatMap WrittenHunk.written

def body : List (List Char) := f.headers ++ f.hunks.flatMap WrittenHunk.read

def countOf (m : Mark) : Nat := (f.hunks.flatMap (·.lines)).countP (·.mark == m)

end WrittenFile

def WrittenFile.ofPath (path : List Char) (h : ∀ c ∈ path, isLineEnd c = false)
    (hunks : List WrittenHunk) : WrittenFile where
  name := "a/".toList ++ path ++ " b/".toList ++ path
  headers := ["--- a/".toList ++ path, "+++ b/".toList ++ path]
  hunks := hunks
  name_line := by
    simp only [List.forall_mem_append]
    exact ⟨⟨⟨noLineEnd_of_all (by decide), h⟩, noLineEnd_of_all (by decide)⟩, h⟩
  headers_line := by
    simp only [List.forall_mem_cons, List.forall_mem_append]
    exact ⟨⟨noLineEnd_of_all (by decide), h⟩, ⟨noLineEnd_of_all (by decide), h⟩,
      List.forall_mem_nil _⟩
  headers_plain := by
    simp only [List.forall_mem_cons]
    exact ⟨⟨rfl, rfl⟩, ⟨rfl, rfl⟩, List.forall_mem_nil _⟩

def render (files : List WrittenFile) : String :=
  String.ofList ((files.flatMap WrittenFile.written).flatMap (· ++ ['\n']))

theorem pieces_text (l : WrittenLine) : pieces l.text = l.read := by
  have hchar : ∀ c ∈ [l.mark.char], isLineEnd c = false := by
    rw [List.forall_mem_singleton]
    cases l.mark <;> decide
  exact pieces_append hchar l.content

theorem isLineEnd_of_mem_digits {n : Nat} {c : Char} (h : c ∈ Decimal.digits n) :
    isLineEnd c = false := by
  have hall : ∀ d < 10, isLineEnd (Nat.digitChar d) = false := by decide
  obtain ⟨d, hd, rfl⟩ := exists_digitChar n c h
  exact hall d hd

theorem isLineEnd_of_mem_rangeText {start n : Nat} {short : Bool} {c : Char}
    (h : c ∈ rangeText start (countText short n)) : isLineEnd c = false := by
  simp only [rangeText, countText, List.mem_append] at h
  rcases h with h | h
  · exact isLineEnd_of_mem_digits h
  · split at h
    next s hs =>
      split at hs
      · cases hs
      · obtain rfl := Option.some.inj hs
        rcases List.mem_cons.mp h with rfl | h
        · decide
        · exact isLineEnd_of_mem_digits h
    · cases h

theorem isLineEnd_of_mem_numbersText (h : WrittenHunk) :
    ∀ c ∈ h.numbersText, isLineEnd c = false := by
  delta WrittenHunk.numbersText
  simp only [List.mem_append]
  intro c hmem
  rcases hmem with (((hc | hc) | hc) | hc) | hc
  · exact noLineEnd_of_all (by decide) c hc
  · exact isLineEnd_of_mem_rangeText hc
  · exact noLineEnd_of_all (by decide) c hc
  · exact isLineEnd_of_mem_rangeText hc
  · exact noLineEnd_of_all (by decide) c hc

theorem flatMap_pieces_hunk (h : WrittenHunk) : h.written.flatMap pieces = h.read := by
  rw [WrittenHunk.written, List.flatMap_cons, pieces_append (isLineEnd_of_mem_numbersText h),
    List.flatMap_map]
  simp only [pieces_text, WrittenHunk.read, WrittenHunk.body, List.cons_append]

theorem flatMap_pieces_file (f : WrittenFile) :
    f.written.flatMap pieces = f.firstLine :: f.body := by
  have hfirst : pieces f.firstLine = [f.firstLine] := by
    have hmark : ∀ c ∈ sectionMark, isLineEnd c = false := noLineEnd_of_all (by decide)
    refine pieces_of_noLineEnd fun c hc => ?_
    rcases List.mem_append.mp hc with hc | hc
    · exact hmark c hc
    · exact f.name_line c hc
  have hheaders : f.headers.flatMap pieces = f.headers := by
    have : ∀ s ∈ f.headers, pieces s = [s] := fun s hs => pieces_of_noLineEnd (f.headers_line s hs)
    rw [List.flatMap_congr this, List.flatMap_singleton']
  simp only [WrittenFile.written, WrittenFile.body, List.cons_append, List.flatMap_cons,
    List.flatMap_append, hfirst, hheaders, List.flatMap_assoc, flatMap_pieces_hunk,
    List.nil_append]

theorem lines_render (files : List WrittenFile) :
    lines (render files).toList = files.flatMap fun f => f.firstLine :: f.body := by
  rw [render, String.toList_ofList, lines_flatMap, List.flatMap_assoc]
  exact List.flatMap_congr fun f _ => flatMap_pieces_file f

theorem digits?_digits (n : Nat) {s : List Char} (h : s.head?.any isDigit = false) :
    digits? (Decimal.digits n ++ s) = some (Decimal.digits n, s) := by
  have hall : ∀ c ∈ Decimal.digits n, isDigit c = true := fun c hc => isDigit_of_mem_digits hc
  have hs : s.takeWhile isDigit = [] ∧ s.dropWhile isDigit = s := by
    cases s with
    | nil => exact ⟨rfl, rfl⟩
    | cons c r => simp_all
  rw [digits?, List.takeWhile_append_of_pos hall, List.dropWhile_append_of_pos hall, hs.1, hs.2,
    List.append_nil, if_neg (by simpa using digits_ne_nil n)]

theorem range?_rangeText (start : Nat) (short : Bool) (n : Nat) {c : Char} {r : List Char}
    (hdigit : isDigit c = false) (hcomma : c ≠ ',') :
    range? (rangeText start (countText short n) ++ c :: r) =
      some (Decimal.digits start, countText short n, c :: r) := by
  unfold range? rangeText
  cases hc : countText short n with
  | none =>
    have hstart := digits?_digits start (s := c :: r) (by simpa using hdigit)
    simp [hstart, after?, Ne.symm hcomma]
  | some t =>
    obtain rfl : t = Decimal.digits n := by
      unfold countText at hc
      split at hc
      · cases hc
      · exact (Option.some.inj hc).symm
    have hcomma : isDigit ',' = false := by decide
    have hstart := digits?_digits start (s := ',' :: (Decimal.digits n ++ c :: r))
      (by simpa using hcomma)
    have hcount := digits?_digits n (s := c :: r) (by simpa using hdigit)
    simp [hstart, hcount, after?]

theorem header?_numbersText (h : WrittenHunk) (rest : List Char) :
    header? (h.numbersText ++ rest) =
      some ((Decimal.digits h.oldStart, countText h.shortOld h.oldCount),
        (Decimal.digits h.newStart, countText h.shortNew h.newCount)) := by
  have hblank : isDigit ' ' = false := by decide
  have hplus : " +".toList = [' ', '+'] := by decide
  have hend : " @@".toList = [' ', '@', '@'] := by decide
  have hold := fun r => range?_rangeText h.oldStart h.shortOld h.oldCount (c := ' ') (r := r)
    hblank (by decide)
  have hnew := fun r => range?_rangeText h.newStart h.shortNew h.newCount (c := ' ') (r := r)
    hblank (by decide)
  have hnext := fun r => after?_append [' ', '+'] r
  have hlast := fun r => after?_append [' ', '@', '@'] r
  simp only [List.cons_append, List.nil_append] at hnext hlast
  delta WrittenHunk.numbersText
  simp only [header?, List.append_assoc, after?_append, hplus, hend,
    List.cons_append, List.nil_append, hold, hnew, hnext, hlast, Option.bind_eq_bind,
    Option.bind_some, Option.pure_def]

theorem number_digits {n : Nat} {m : Int} :
    number (Decimal.digits n) = .ok m ↔ IsReadable n ∧ m = n := by
  have := readInteger_ofNat n
  rw [Decimal.ofNat] at this
  rw [number, this]
  by_cases h : IsReadable n
  · simp [h, Except.mapError, eq_comm]
  · simp [h, Except.mapError]

theorem count_countText {short : Bool} {n : Nat} {m : Int} :
    count (countText short n) = .ok m ↔ IsReadable n ∧ m = n := by
  unfold countText
  split
  next h =>
    obtain rfl : n = 1 := by simpa using (Bool.and_eq_true_iff.mp h).2
    have hone : IsReadable 1 := by
      rw [IsReadable, Decimal.digits]
      decide
    simp [count, hone, eq_comm]
  next => exact number_digits

end ChangeImpact.Diff

/-!
## The numbers of added lines

The lines of a hunk are numbered on from the first line of the new file. A stray line, into which
a line is cut, has a number of its own unless it is taken for a note, and moves the lines behind
it; `readNumbers_eq_iff` says when the added lines keep their numbers.
-/

namespace ChangeImpact.Diff

open Text

def readNumbers (n : Int) (ls : List (List Char)) : List Int :=
  (Hunk.numberFrom n (ls.map String.ofList)).map (·.1)

theorem readNumbers_cons (n : Int) (s : List Char) (ls : List (List Char)) :
    readNumbers n (s :: ls) =
      if s.head? = some '+' then n :: readNumbers (n + 1) ls
      else if s.head? = some '-' ∨ s.head? = some '\\' then readNumbers n ls
      else readNumbers (n + 1) ls := by
  simp only [readNumbers, List.map_cons, Hunk.numberFrom, String.toList_ofList]
  cases s with
  | nil => rfl
  | cons c r =>
    by_cases hadd : c = '+'
    · simp [hadd]
    · by_cases hrem : c = '-'
      · simp [hrem]
      · by_cases hnote : c = '\\'
        · simp [hnote]
        · simp only [List.head?_cons, Option.some.injEq, hadd, hrem, hnote, or_self, if_false]
          split <;> simp_all

def shift (ss : List (List Char)) : Nat := ss.countP (·.head? != some '\\')

theorem shift_eq_zero {ss : List (List Char)} : shift ss = 0 ↔ ∀ s ∈ ss, s.head? = some '\\' := by
  simp [shift, List.countP_eq_zero]

theorem readNumbers_strays {ss : List (List Char)}
    (h : ∀ s ∈ ss, s.head? ≠ some '+' ∧ s.head? ≠ some '-') (n : Int) (ls : List (List Char)) :
    readNumbers n (ss ++ ls) = readNumbers (n + shift ss) ls := by
  induction ss generalizing n with
  | nil => simp [shift]
  | cons s ss ih =>
    obtain ⟨⟨hadd, hrem⟩, hss⟩ := List.forall_mem_cons.mp h
    rw [List.cons_append, readNumbers_cons, if_neg hadd]
    by_cases hnote : s.head? = some '\\'
    · rw [if_pos (.inr hnote), ih hss]
      simp [shift, hnote]
    · rw [if_neg (not_or.mpr ⟨hrem, hnote⟩), ih hss]
      simp [shift, hnote, Int.add_assoc, Int.add_comm]

def writtenNumbers (n : Nat) (ls : List WrittenLine) : List Int :=
  ((ls.filter (·.mark.isNew)).zipIdx n).filterMap fun (l, n) =>
    if l.mark = .added then some (n : Int) else none

theorem writtenNumbers_cons (n : Nat) (l : WrittenLine) (ls : List WrittenLine) :
    writtenNumbers n (l :: ls) =
      if l.mark = .added then (n : Int) :: writtenNumbers (n + 1) ls
      else writtenNumbers (if l.mark = .context then n + 1 else n) ls := by
  obtain ⟨m, content⟩ := l
  cases m <;> simp [writtenNumbers, Mark.isNew]

theorem forall_added_iff {P : Prop} {ls : List WrittenLine} :
    (∀ l ∈ ls, l.mark = .added → P) ↔ P ∨ ∀ l ∈ ls, l.mark ≠ .added := by
  by_cases hP : P
  · simp only [hP, implies_true, true_or]
  · simp only [hP, imp_false, false_or, ne_eq]

theorem readNumbers_eq_iff {ls : List WrittenLine}
    (h : ∀ l ∈ ls, ∀ s ∈ strays l.content, s.head? ≠ some '+' ∧ s.head? ≠ some '-') (n k : Nat) :
    readNumbers (n + k) (ls.flatMap WrittenLine.read) = writtenNumbers n ls ↔
      (k = 0 ∨ ∀ l ∈ ls, l.mark ≠ .added) ∧
        ls.Pairwise fun l l' => l'.mark = .added → shift (strays l.content) = 0 := by
  -- `k` is by how much lines that are read in between have moved the numbers.
  induction ls generalizing n k with
  | nil => simp [readNumbers, writtenNumbers, Hunk.numberFrom]
  | cons l ls ih =>
    obtain ⟨hl, hls⟩ := List.forall_mem_cons.mp h
    have hstep := fun m : Int => readNumbers_strays hl m (ls.flatMap WrittenLine.read)
    have hkept := ih hls n (k + shift (strays l.content))
    have hnext := ih hls (n + 1) (k + shift (strays l.content))
    push_cast at hkept hnext
    rw [List.flatMap_cons, WrittenLine.read, List.cons_append, readNumbers_cons,
      writtenNumbers_cons, List.pairwise_cons,
      forall_added_iff (P := shift (strays l.content) = 0), hstep, hstep, List.forall_mem_cons]
    have hcast : (n + k + 1 + shift (strays l.content) : Int) =
        n + 1 + (k + shift (strays l.content)) := by omega
    have hzero : k + shift (strays l.content) = 0 ↔ k = 0 ∧ shift (strays l.content) = 0 :=
      Nat.add_eq_zero_iff
    rw [hzero, and_or_right, and_assoc] at hkept hnext
    rw [hcast, Int.add_assoc (n : Int) k]
    -- Added lines and lines of both files count on, and the others do not.
    cases hm : l.mark with
    | added =>
      have hhead : (n + k : Int) = n ↔ k = 0 := by omega
      simp only [Mark.char, List.head?_cons, if_true, List.cons.injEq, hhead, hnext, ne_eq,
        not_true_eq_false, false_and, or_false]
      exact and_congr_right fun hk => by simp only [hk, true_or, true_and]
    | context =>
      simp only [Mark.char, List.head?_cons, Option.some.injEq, Char.reduceEq, or_self, if_false,
        reduceCtorEq, if_true, hnext, ne_eq, not_false_eq_true, true_and]
    | removed =>
      simp only [Mark.char, List.head?_cons, Option.some.injEq, Char.reduceEq, true_or, if_false,
        if_true, reduceCtorEq, hkept, ne_eq, not_false_eq_true, true_and]
    | note =>
      simp only [Mark.char, List.head?_cons, Option.some.injEq, Char.reduceEq, or_true, if_false,
        if_true, reduceCtorEq, hkept, ne_eq, not_false_eq_true, true_and]

end ChangeImpact.Diff
