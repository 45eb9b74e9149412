import ChangeImpact.Proofs.Change.Joined
import ChangeImpact.Proofs.Data.Results
import ChangeImpact.Risk.Warning
import Mathlib.Logic.Relation

/-!
# Warnings of diffs one behind the other

A diff is scanned file by file, so that two diffs one behind the other give the warnings of the
first and then those of the second. Neighbours that warn of awaits on one line have no order of
their own, and warnings are alike up to it: `read_scan_append`.
-/

namespace ChangeImpact.Risk

open Diff (DiffError EndsLine BeginsSection)

namespace Warning

def sameAwaitLine (a b : Warning) : Bool :=
  a.kind = .awaitRemoved && b.kind = .awaitRemoved && a.path == b.path && a.line == b.line

inductive Exchange : List Warning → List Warning → Prop
  | swap (before behind : List Warning) (v w : Warning) (h : sameAwaitLine v w = true) :
      Exchange (before ++ v :: w :: behind) (before ++ w :: v :: behind)

def Alike : List Warning → List Warning → Prop := Relation.EqvGen Exchange

theorem Alike.refl (ws : List Warning) : Alike ws ws := Relation.EqvGen.refl ws

inductive SameScan :
    Except DiffError (List Warning) → Except DiffError (List Warning) → Prop
  | error (e : DiffError) : SameScan (.error e) (.error e)
  | ok (vs ws : List Warning) (h : Alike vs ws) : SameScan (.ok vs) (.ok ws)

theorem scan_append {first second : String} (hfirst : EndsLine first)
    (hsecond : BeginsSection second) :
    SameScan (scan (first ++ second)) (do return (← scan first) ++ (← scan second)) := by
  rw [scan, scan, scan, Diff.read_append hfirst hsecond]
  cases Diff.read first with
  | error e => exact .error e
  | ok ds =>
    cases Diff.read second with
    | error e => exact .error e
    | ok es =>
      refine .ok ((ds ++ es).flatMap ofFile) (ds.flatMap ofFile ++ es.flatMap ofFile) ?_
      rw [List.flatMap_append]
      exact .refl _

end Warning

/-- Two diffs, the first of which ends with a line and the second of which begins with a section,
are together read as one after the other, and warned of alike; the totals of the change sets add
up. -/
theorem read_scan_append (first second : String) (hfirst : EndsLine first)
    (hsecond : BeginsSection second) :
    Diff.read (first ++ second) = (do return (← Diff.read first) ++ (← Diff.read second)) ∧
    Warning.SameScan (Warning.scan (first ++ second))
      (do return (← Warning.scan first) ++ (← Warning.scan second)) ∧
    ∀ ds es both, Diff.read first = .ok ds → Diff.read second = .ok es →
      Diff.read (first ++ second) = .ok both →
        (Diff.changeSet both).IsSum (Diff.changeSet ds) (Diff.changeSet es) := by
  have hread := Diff.read_append hfirst hsecond
  refine ⟨hread, Warning.scan_append hfirst hsecond, fun ds es both hds hes hboth => ?_⟩
  rw [hread, hds, hes] at hboth
  obtain rfl := Except.ok.inj hboth
  exact Diff.isSum_changeSet ds es

def droppingDiff : String := "diff --git " ++ "a/a.js b/a.js\n@@ -1 +1 @@\n-await f()\n+f()" ++ "\n"

theorem read_scan_append_twice : EndsLine droppingDiff ∧ BeginsSection droppingDiff ∧
    Warning.SameScan (Warning.scan (droppingDiff ++ droppingDiff))
      (do return (← Warning.scan droppingDiff) ++ (← Warning.scan droppingDiff)) ∧
    ∃ both, Diff.read (droppingDiff ++ droppingDiff) = .ok both ∧
      (Diff.changeSet both).linesAdded = 2 ∧ (Diff.changeSet both).filesModified = 2 := by
  have hfirst : EndsLine droppingDiff := .inr ⟨_, rfl⟩
  have hsecond : BeginsSection droppingDiff := .inr ⟨_, String.append_assoc⟩
  have hcounts : (Diff.read droppingDiff).map (fun ds =>
      ((Diff.changeSet ds).linesAdded, (Diff.changeSet ds).filesModified)) = .ok (1, 1) := by
    decide +kernel
  obtain ⟨ds, hds, hone⟩ := map_eq_ok.mp hcounts
  obtain ⟨hadded, hmodified⟩ := Prod.mk.inj hone
  obtain ⟨hread, hscan, hsum⟩ := read_scan_append _ _ hfirst hsecond
  have hboth : Diff.read (droppingDiff ++ droppingDiff) = .ok (ds ++ ds) := by
    rw [hread, hds]
    rfl
  have htotal := hsum ds ds _ hds hds hboth
  refine ⟨hfirst, hsecond, hscan, ds ++ ds, hboth, ?_, ?_⟩
  · rw [htotal.linesAdded, hadded]
    rfl
  · rw [htotal.filesModified, hmodified]

end ChangeImpact.Risk
