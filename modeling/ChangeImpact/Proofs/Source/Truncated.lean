import ChangeImpact.Proofs.Source.Tree
import ChangeImpact.Proofs.Text.Subparts
import ChangeImpact.Source.Limits

/-!
# Files that are cut

A file is read up to a number of bytes, and the last of them may stand in the middle of a character or
of an invalid part. What is read of it is then the start of what is read of the whole file, or such a
start with one replacement character behind it, for the part that was cut.
-/

namespace ChangeImpact

namespace Text.Utf8

/-- The first bytes are read alike, whatever follows them, up to a part that is left open. -/
theorem exists_scan (p : Option Pending) (bs : Bytes) : ∃ out next, ∀ r,
    scan p (bs ++ r) = out ++ scan next r := by
  induction bs generalizing p with
  | nil => exact ⟨[], p, fun r => rfl⟩
  | cons b bs ih =>
    obtain ⟨out, next, hscan⟩ := ih (step p b).2
    refine ⟨(step p b).1 ++ out, next, fun r => ?_⟩
    have hstep : scan p (b :: (bs ++ r)) = (step p b).1 ++ scan (step p b).2 (bs ++ r) := by
      cases p <;> rfl
    rw [List.cons_append, hstep, hscan, List.append_assoc]

/-- A start of a text, or one with the replacement character behind it. -/
def IsCut (cut whole : List Char) : Prop :=
  cut <+: whole ∨ ∃ front, front <+: whole ∧ cut = front ++ [replacement]

theorem isCut_decodeLossy_take (n : Nat) (bs : Bytes) :
    IsCut (decodeLossy (bs.take n)) (decodeLossy bs) := by
  obtain ⟨out, next, hscan⟩ := exists_scan none (bs.take n)
  have hcut := hscan []
  have hwhole := hscan (bs.drop n)
  rw [List.append_nil] at hcut
  rw [List.take_append_drop] at hwhole
  rw [decodeLossy, decodeLossy, hcut, hwhole, List.map_append, List.map_append]
  cases next with
  | none =>
    left
    rw [scan, List.map_nil, List.append_nil]
    exact List.prefix_append _ _
  | some p =>
    right
    exact ⟨_, List.prefix_append _ _, rfl⟩

end Text.Utf8

namespace Source

open Text.Utf8

variable {m : Machine} {disk : Tree} {root : Path} {path : String} {limit : Int} {bs : Bytes}

def content (m : Machine) (disk : Tree) (root : Path) (limit : Int) (path : String) :
    Except DiskFault (Option String) :=
  ifNoFault (readFault? m disk root limit path) (read? disk root limit path)

def mostBytes : Int := Int.pow 2 63 - 1 - overhead

theorem readFault?_file (hdisk : disk.WellFormed)
    (hfile : disk.at? (root.child path) = some (.file bs))
    (hopen : disk.refuses (root.child path) = false) :
    readFault? m disk root limit path = sizeFault? m limit := by
  have hthere : disk.isFileAt (root.child path) = true := by
    rw [Tree.isFileAt, hfile]
    rfl
  rw [readFault?, (hdisk.at? hfile).2, isFileIn, hopen, hthere]
  rfl

theorem sizeFault?_eq (hlimit : 0 ≤ limit) : sizeFault? m limit =
    if mostBytes < limit then some .beyondWord
    else if m.memory ≤ limit then some .beyondMemory else none := by
  have hpower : Int.pow 2 63 = 2 ^ 63 := rfl
  have hover : overhead = 33 := rfl
  have hlow : ¬ limit < -1 := by omega
  simp only [sizeFault?, mostBytes, if_neg hlow, hpower, hover, Bool.or_eq_true, decide_eq_true_eq]
  by_cases hword : limit < -2 ^ 63 ∨ 2 ^ 63 ≤ limit
  · rw [if_pos hword, if_pos (by omega)]
  · rw [if_neg hword]

theorem toList_decode (hlimit : 0 ≤ limit) :
    (decode limit bs).toList = decodeLossy (bs.take limit.toNat) := by
  rw [decode, if_neg (by omega), String.toList_ofList]

/-- What is read of a file up to a limit: a cut of its lenient reading, unless so many bytes cannot
be asked for or there is no room for them. A text that lies within the limit is read as it was
written. -/
theorem content_file (m : Machine) (hdisk : disk.WellFormed)
    (hfile : disk.at? (root.child path) = some (.file bs))
    (hopen : disk.refuses (root.child path) = false) (hlimit : 0 ≤ limit) :
    (mostBytes < limit → content m disk root limit path = .error .beyondWord) ∧
    (limit ≤ mostBytes → m.memory ≤ limit →
      content m disk root limit path = .error .beyondMemory) ∧
    (limit ≤ mostBytes → limit < m.memory →
      ∃ text, content m disk root limit path = .ok (some text) ∧
        (∃ whole, (∀ s, Lenient bs s ↔ s = whole) ∧ IsCut text.toList whole) ∧
        ∀ s : String, bs = encode s.toList → bs.length ≤ limit → text = s) := by
  rw [content, readFault?_file hdisk hfile hopen, read?_file hfile hopen, sizeFault?_eq hlimit]
  refine ⟨fun hbeyond => by rw [if_pos hbeyond, ifNoFault], fun hword hfull => ?_,
    fun hword hroom => ?_⟩
  · rw [if_neg (Int.not_lt.mpr hword), if_pos hfull, ifNoFault]
  rw [if_neg (Int.not_lt.mpr hword), if_neg (Int.not_le.mpr hroom), ifNoFault]
  refine ⟨decode limit bs, rfl, ⟨decodeLossy bs, fun s => lenient_iff, ?_⟩, fun s hs hlength => ?_⟩
  · rw [toList_decode hlimit]
    exact isCut_decodeLossy_take limit.toNat bs
  · apply String.toList_injective
    rw [toList_decode hlimit, List.take_of_length_le (by omega), hs, decodeLossy_encode]

def accented : Tree := .folder [("p", .folder [("a.py", .file (encode "xé".toList))])]

theorem accented_wellFormed : accented.WellFormed := by
  refine .folder (by decide) (by decide) ?_
  simp only [List.mem_singleton, forall_eq]
  refine .folder (by decide) (by decide) ?_
  simp only [List.mem_singleton, forall_eq]
  exact .file _

theorem at?_accented : accented.at? (Path.child ⟨.root, ["p"]⟩ "a.py") =
    some (.file (encode "xé".toList)) := by
  have hplace : Path.child ⟨.root, ["p"]⟩ "a.py" = ⟨.root, ["p", "a.py"]⟩ := by decide +kernel
  rw [hplace]
  simp [accented, Tree.at?, Tree.follow]

theorem refuses_accented : accented.refuses (Path.child ⟨.root, ["p"]⟩ "a.py") = false := by
  decide +kernel

theorem content_accented : accented.WellFormed ∧
    accented.at? (Path.child ⟨.root, ["p"]⟩ "a.py") = some (.file (encode "xé".toList)) ∧
    accented.refuses (Path.child ⟨.root, ["p"]⟩ "a.py") = false ∧ (0 : Int) ≤ 2 ∧
    ∃ text, content .usual accented ⟨.root, ["p"]⟩ 2 "a.py" = .ok (some text) ∧
      ∃ whole, Lenient (encode "xé".toList) whole ∧ IsCut text.toList whole := by
  have hlimit : (0 : Int) ≤ 2 := by decide
  obtain ⟨-, -, hread⟩ :=
    content_file .usual accented_wellFormed at?_accented refuses_accented hlimit
  obtain ⟨text, htext, ⟨whole, hwhole, hcut⟩, -⟩ := hread (by decide) (by decide)
  exact ⟨accented_wellFormed, at?_accented, refuses_accented, hlimit, text, htext, whole,
    (hwhole whole).mpr rfl, hcut⟩

theorem content_accented_beyondWord :
    accented.at? (Path.child ⟨.root, ["p"]⟩ "a.py") = some (.file (encode "xé".toList)) ∧
    0 ≤ Int.pow 2 63 ∧
    content .usual accented ⟨.root, ["p"]⟩ (Int.pow 2 63) "a.py" = .error .beyondWord := by
  refine ⟨at?_accented, by decide, ?_⟩
  rw [content, readFault?_file accented_wellFormed at?_accented refuses_accented]
  rfl

example : decode 2 (encode "xé".toList) = "x\uFFFD" := by decide +kernel

end Source

end ChangeImpact
