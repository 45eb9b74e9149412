import Mathlib.Data.List.Basic
import Mathlib.Data.List.Nodup
import Mathlib.Logic.Relation

/-!
# Workers

A pool of workers takes tasks in the order in which they are submitted, works on as many at a time
as there are workers, and may finish them in any order. The results are handed over in the order of
submission. `delivers_iff` says that the number of workers and the order in which they finish do
not show in what is handed over.
-/

namespace ChangeImpact.Pool

open Relation (ReflTransGen)

variable {α β : Type}

structure State (α β : Type) where
  waiting : List (α × Nat)
  running : List (α × Nat)
  done : List (β × Nat)

def submitted (tasks : List α) : State α β := ⟨tasks.zipIdx, [], []⟩

def finished (work : α → β) (t : α × Nat) : β × Nat := (work t.1, t.2)

inductive Step (workers : Nat) (work : α → β) : State α β → State α β → Prop
  | take {t : α × Nat} {waiting running : List (α × Nat)} {done : List (β × Nat)} :
      running.length < workers →
      Step workers work ⟨t :: waiting, running, done⟩ ⟨waiting, t :: running, done⟩
  | finish {t : α × Nat} {waiting before behind : List (α × Nat)} {done : List (β × Nat)} :
      Step workers work ⟨waiting, before ++ t :: behind, done⟩
        ⟨waiting, before ++ behind, finished work t :: done⟩

def State.results (work : α → β) (s : State α β) : List (β × Nat) :=
  s.done ++ (s.running ++ s.waiting).map (finished work)

/-- Some run of the pool ends with these results, in the order of submission. -/
def Delivers (workers : Nat) (work : α → β) (tasks : List α) (results : List β) : Prop :=
  ∃ done, ReflTransGen (Step workers work) (submitted tasks) ⟨[], [], done⟩ ∧
    results.zipIdx.Perm done

theorem Step.results_perm {workers : Nat} {work : α → β} {s t : State α β}
    (h : Step workers work s t) : (s.results work).Perm (t.results work) := by
  cases h with
  | take =>
    simp only [State.results, List.map_append, List.map_cons, List.cons_append]
    exact List.Perm.append_left _ List.perm_middle
  | finish =>
    simp only [State.results, List.map_append, List.map_cons, List.cons_append, List.append_assoc]
    refine List.Perm.trans ?_ List.perm_middle
    exact List.Perm.append_left _ List.perm_middle

theorem results_perm_of_run {workers : Nat} {work : α → β} {s t : State α β}
    (h : ReflTransGen (Step workers work) s t) : (s.results work).Perm (t.results work) := by
  induction h with
  | refl => exact .rfl
  | tail _ hstep ih => exact ih.trans hstep.results_perm

theorem results_submitted (work : α → β) (tasks : List α) :
    (submitted tasks : State α β).results work = (tasks.map work).zipIdx := by
  simp [submitted, State.results, finished, List.zipIdx_map, Prod.map]

theorem eq_of_zipIdx_perm {xs ys : List β} (h : xs.zipIdx.Perm ys.zipIdx) : xs = ys := by
  have hsorted : ∀ zs : List β, zs.zipIdx.Pairwise fun a b => a.2 < b.2 := fun zs => by
    have := List.pairwise_lt_range' (s := 0) (n := zs.length)
    rw [← List.zipIdx_map_snd 0 zs, List.pairwise_map] at this
    exact this
  have heq : xs.zipIdx = ys.zipIdx := by
    refine List.Perm.eq_of_pairwise (fun a b _ _ hab hba => ?_) (hsorted xs) (hsorted ys) h
    exact absurd (Nat.lt_trans hab hba) (Nat.lt_irrefl _)
  simpa using congrArg (List.map Prod.fst) heq

theorem eq_map_of_delivers {workers : Nat} {work : α → β} {tasks : List α} {results : List β}
    (h : Delivers workers work tasks results) : results = tasks.map work := by
  obtain ⟨done, hrun, hperm⟩ := h
  have hdone := results_perm_of_run hrun
  rw [results_submitted] at hdone
  refine eq_of_zipIdx_perm (hperm.trans ?_)
  simpa [State.results] using hdone.symm

theorem run_of_waiting {workers : Nat} (hw : 0 < workers) (work : α → β)
    (waiting : List (α × Nat)) (done : List (β × Nat)) :
    ∃ done', ReflTransGen (Step workers work) ⟨waiting, [], done⟩ ⟨[], [], done'⟩ := by
  induction waiting generalizing done with
  | nil => exact ⟨done, .refl⟩
  | cons t r ih =>
    obtain ⟨done', hrun⟩ := ih (finished work t :: done)
    have htake : Step workers work ⟨t :: r, [], done⟩ ⟨r, [t], done⟩ := .take (by simpa using hw)
    have hfinish : Step workers work ⟨r, [] ++ t :: [], done⟩
        ⟨r, [] ++ [], finished work t :: done⟩ := .finish
    exact ⟨done', .head htake (.head hfinish hrun)⟩

theorem delivers_iff {workers : Nat} (hw : 0 < workers) {work : α → β} {tasks : List α}
    {results : List β} : Delivers workers work tasks results ↔ results = tasks.map work := by
  refine ⟨eq_map_of_delivers, ?_⟩
  intro heq
  obtain rfl := heq
  obtain ⟨done, hrun⟩ := run_of_waiting hw work tasks.zipIdx ([] : List (β × Nat))
  have hdone := results_perm_of_run hrun
  have hsub := results_submitted work tasks
  simp only [submitted] at hsub
  rw [hsub] at hdone
  exact ⟨done, hrun, by simpa [State.results] using hdone⟩

end ChangeImpact.Pool
