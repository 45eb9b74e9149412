import ChangeImpact.Proofs.Change.Reading
import ChangeImpact.Proofs.Data.Spans
import ChangeImpact.Proofs.Text.Lines
import Mathlib.Algebra.BigOperators.Group.List.Basic

/-!
# Diffs one behind the other

A diff that ends with a line, and behind it a diff that begins with the first line of a section:
nothing of the first is open where the second begins, so that together they are read as one after
the other. The totals of the change set add up.
-/

namespace ChangeImpact

/-- The lines and the files of `c` are those of `a` and `b` together. -/
structure ChangeSet.IsSum (c a b : ChangeSet) : Prop where
  linesAdded : c.linesAdded = a.linesAdded + b.linesAdded
  linesDeleted : c.linesDeleted = a.linesDeleted + b.linesDeleted
  filesAdded : c.filesAdded = a.filesAdded + b.filesAdded
  filesModified : c.filesModified = a.filesModified + b.filesModified
  filesDeleted : c.filesDeleted = a.filesDeleted + b.filesDeleted

namespace ChangeSet

theorem filesWith_append (fs gs : List ChangedFile) (statuses : List ChangeStatus) :
    filesWith ⟨fs ++ gs⟩ statuses = filesWith ⟨fs⟩ statuses + filesWith ⟨gs⟩ statuses := by
  rw [filesWith, List.filter_append, List.length_append, filesWith, filesWith]

theorem foldr_add_append (fs gs : List ChangedFile) (count : ChangedFile → Int) :
    ((fs ++ gs).map count).foldr (· + ·) 0 =
      (fs.map count).foldr (· + ·) 0 + (gs.map count).foldr (· + ·) 0 := by
  rw [List.map_append]
  exact List.sum_append

theorem isSum_append (fs gs : List ChangedFile) : IsSum ⟨fs ++ gs⟩ ⟨fs⟩ ⟨gs⟩ where
  linesAdded := foldr_add_append fs gs _
  linesDeleted := foldr_add_append fs gs _
  filesAdded := filesWith_append fs gs _
  filesModified := filesWith_append fs gs _
  filesDeleted := filesWith_append fs gs _

end ChangeSet

namespace Diff

open Text

/-- The text is cut off behind a whole line. -/
def EndsLine (text : String) : Prop := text = "" ∨ ∃ s, text = s ++ "\n"

/-- The text holds nothing in front of its first section. -/
def BeginsSection (text : String) : Prop := text = "" ∨ ∃ s, text = "diff --git " ++ s

theorem lines_append {text : String} (h : EndsLine text) (t : List Char) :
    lines (text.toList ++ t) = lines text.toList ++ lines t := by
  rcases h with rfl | ⟨s, rfl⟩
  · rfl
  · rw [String.toList_append, List.append_assoc]
    exact lines_append_newline s.toList t

theorem lines_plain_cons {c : Char} (hc : isLineEnd c = false) (s : List Char) :
    lines (c :: s) = (c :: (lines s).headD []) :: (lines s).tail := by
  have hreturn : c ≠ '\r' := fun heq => absurd isLineEnd_return (by rw [← heq, hc]; decide)
  rw [lines_cons (.inl hreturn), hc, if_neg Bool.false_ne_true]
  cases lines s with
  | nil => rfl
  | cons l ls => rfl

theorem exists_lines_append {t : List Char} (hne : t ≠ []) (ht : ∀ c ∈ t, isLineEnd c = false)
    (s : List Char) : ∃ l ls, lines (t ++ s) = (t ++ l) :: ls := by
  induction t with
  | nil => exact absurd rfl hne
  | cons c t ih =>
    obtain ⟨hc, ht⟩ := List.forall_mem_cons.mp ht
    rw [List.cons_append, lines_plain_cons hc]
    cases t with
    | nil => exact ⟨_, _, rfl⟩
    | cons d t =>
      obtain ⟨l, ls, hls⟩ := ih (List.cons_ne_nil _ _) ht
      rw [hls]
      exact ⟨l, ls, rfl⟩

theorem isFirst_head_lines {text : String} (h : BeginsSection text) :
    ∀ line ∈ (lines text.toList).head?, isFirst line = true := by
  rcases h with rfl | ⟨s, rfl⟩
  · exact nofun
  · have hall : (sectionMark.all fun c => !isLineEnd c) = true := by decide
    have hplain : ∀ c ∈ sectionMark, isLineEnd c = false := by simpa using hall
    obtain ⟨l, ls, hls⟩ := exists_lines_append (by decide) hplain s.toList
    rw [String.toList_append]
    change ∀ line ∈ (lines (sectionMark ++ s.toList)).head?, isFirst line = true
    rw [hls, forall_head?_cons, isFirst, List.isPrefixOf_iff_prefix]
    exact List.prefix_append _ _

theorem sections_append_of_head? {rs : List (List Char)}
    (h : ∀ line ∈ rs.head?, isFirst line = true) (ls : List (List Char)) :
    sections (ls ++ rs) = sections ls ++ sections rs := by
  induction ls with
  | nil => rfl
  | cons line ls ih =>
    have hbody : (ls ++ rs).takeWhile (fun l => !sectionMark.isPrefixOf l) =
        ls.takeWhile fun l => !sectionMark.isPrefixOf l :=
      takeWhile_append_of_stop fun l hl => congrArg Bool.not (h l hl)
    rw [List.cons_append, sections, sections, ih, hbody]
    split
    · rfl
    · rfl

theorem sections_lines_append {first second : String} (hfirst : EndsLine first)
    (hsecond : BeginsSection second) : sections (lines (first ++ second).toList) =
      sections (lines first.toList) ++ sections (lines second.toList) := by
  rw [String.toList_append, lines_append hfirst,
    sections_append_of_head? (isFirst_head_lines hsecond)]

theorem read_append {first second : String} (hfirst : EndsLine first)
    (hsecond : BeginsSection second) : read (first ++ second) =
      (do return (← read first) ++ (← read second)) := by
  rw [read, sections_lines_append hfirst hsecond, List.mapM_append]
  rfl

theorem isSum_changeSet (ds es : List FileDiff) :
    (changeSet (ds ++ es)).IsSum (changeSet ds) (changeSet es) := by
  rw [changeSet, List.filter_append, List.map_append]
  exact ChangeSet.isSum_append _ _

end Diff

end ChangeImpact
