import ChangeImpact.Analysis.Run

/-!
# Answers that do not depend on earlier questions

The record of the questions to git is written and never read. So what an inquiry comes to is one
value, whatever was asked before it: `Gives` says that a computation comes to a value, and each
step of an analysis gives one.
-/

namespace ChangeImpact

def Gives {α : Type} (x : Asking α) (a : α) : Prop := ∀ asked, (x.run asked).1 = a

namespace Gives

variable {α β ε : Type}

theorem unique {x : Asking α} {a b : α} (h : Gives x a) (h' : Gives x b) : a = b :=
  (h []).symm.trans (h' [])

theorem pure (a : α) : Gives (Pure.pure a) a := fun _ => rfl

theorem bind {x : Asking α} {f : α → Asking β} {a : α} {b : β} (h : Gives x a)
    (h' : Gives (f a) b) : Gives (x >>= f) b := fun asked => by
  have hrun : ((x >>= f).run asked).1 = ((f (x.run asked).1).run (x.run asked).2).1 := rfl
  rw [hrun, h asked]
  exact h' _

theorem lift (r : Except ε α) : Gives (liftM r : ExceptT ε Asking α).run r := fun _ => rfl

theorem lift_of_eq {r r' : Except ε α} (h : r = r') :
    Gives (liftM r : ExceptT ε Asking α).run r' := fun _ => h

theorem ok {x : Asking α} {a : α} (h : Gives x a) :
    Gives (liftM x : ExceptT ε Asking α).run (.ok a) := fun asked => congrArg Except.ok (h asked)

theorem bind_ok {x : ExceptT ε Asking α} {f : α → ExceptT ε Asking β} {a : α}
    {r : Except ε β} (h : Gives x.run (.ok a)) (h' : Gives (f a).run r) :
    Gives (x >>= f).run r := by
  rw [ExceptT.run_bind]
  exact h.bind h'

theorem bind_error {x : ExceptT ε Asking α} {f : α → ExceptT ε Asking β} {e : ε}
    (h : Gives x.run (.error e)) : Gives (x >>= f).run (.error e) := by
  rw [ExceptT.run_bind]
  exact h.bind (Gives.pure _)

theorem exists_bind_ok {x : ExceptT ε Asking α} {f : α → ExceptT ε Asking β} {a : α}
    {P : Except ε β → Prop} (h : Gives x.run (.ok a)) (h' : ∃ r, Gives (f a).run r ∧ P r) :
    ∃ r, Gives (x >>= f).run r ∧ P r := by
  obtain ⟨r, hr, hp⟩ := h'
  exact ⟨r, h.bind_ok hr, hp⟩

theorem exists_bind {x : Asking α} {f : α → Asking β} (h : ∃ a, Gives x a)
    (h' : ∀ a, ∃ b, Gives (f a) b) : ∃ b, Gives (x >>= f) b := by
  obtain ⟨a, ha⟩ := h
  obtain ⟨b, hb⟩ := h' a
  exact ⟨b, ha.bind hb⟩

theorem exists_bindT {x : ExceptT ε Asking α} {f : α → ExceptT ε Asking β}
    (h : ∃ r, Gives x.run r) (h' : ∀ a, ∃ r, Gives (f a).run r) :
    ∃ r, Gives (x >>= f).run r := by
  obtain ⟨r, hr⟩ := h
  cases r with
  | error e => exact ⟨.error e, hr.bind_error⟩
  | ok a =>
    obtain ⟨b, hb⟩ := h' a
    exact ⟨b, hr.bind_ok hb⟩

end Gives

namespace Git

variable (git : Git)

theorem ask_gives (question : Question) : ∃ r, Gives (git.ask question) r := by
  unfold ask
  refine Gives.exists_bind ⟨(), fun _ => rfl⟩ fun _ => ?_
  cases git question with
  | unavailable reason => exact ⟨_, Gives.pure _⟩
  | refused e => exact ⟨_, Gives.pure _⟩
  | finished stdout stderr code =>
    simp only
    split <;> exact ⟨_, Gives.pure _⟩

theorem changedFiles_gives (base head : LooseText) :
    ∃ r, Gives (git.changedFiles base head) r := by
  unfold changedFiles
  refine Gives.exists_bind (git.ask_gives _) fun numstat => ?_
  cases numstat with
  | error e => exact ⟨_, Gives.pure _⟩
  | ok numstat =>
    refine Gives.exists_bind (git.ask_gives _) fun nameStatus => ?_
    cases nameStatus <;> exact ⟨_, Gives.pure _⟩

theorem diffText_gives (base head : LooseText) (limit : Int) :
    ∃ r, Gives (git.diffText base head limit) r :=
  Gives.exists_bind (git.ask_gives _) fun _ => ⟨_, Gives.pure _⟩

theorem commitMessages_gives (base head : LooseText) (limit : Int) :
    ∃ r, Gives (git.commitMessages base head limit) r := by
  unfold commitMessages
  split
  · exact ⟨_, Gives.pure _⟩
  · exact Gives.exists_bind (git.ask_gives _) fun _ => ⟨_, Gives.pure _⟩

theorem topLevel_gives (here start : Path) : ∃ r, Gives (git.topLevel here start) r :=
  Gives.exists_bind (git.ask_gives _) fun _ => ⟨_, Gives.pure _⟩

end Git

namespace Repository

theorem asked_gives {α : Type} {answer : Asking (Except CallFault α)}
    (h : ∃ r, Gives answer r) : ∃ r, Gives (asked answer).run r := by
  unfold asked
  obtain ⟨r, hr⟩ := h
  refine Gives.exists_bindT ⟨.ok r, hr.ok⟩ fun r => ?_
  cases r <;> exact ⟨_, Gives.pure _⟩

theorem topAround_gives (disk : Tree) (git : Git) (here start : Path) :
    ∃ r, Gives (topAround disk git here start).run r := by
  unfold topAround
  refine Gives.exists_bindT ⟨_, Gives.lift _⟩ fun start => ?_
  refine Gives.exists_bindT (asked_gives (git.topLevel_gives here start)) fun top => ?_
  split <;> exact ⟨_, Gives.pure _⟩

theorem changesBetween_gives (git : Git) (base head : LooseText) :
    ∃ r, Gives (changesBetween git base head).run r := by
  unfold changesBetween
  obtain ⟨changes, hchanges⟩ := git.changedFiles_gives base head
  refine Gives.exists_bindT ⟨.ok changes, hchanges.ok⟩ fun changes => ?_
  rcases changes with (e | e) | changes
  · cases e <;> exact ⟨_, Gives.pure _⟩
  · exact ⟨_, Gives.pure _⟩
  · exact ⟨_, Gives.pure _⟩

theorem settingsOr_gives (m : Machine) (disk : Tree) (root : Path) (given : Option Settings) :
    ∃ r, Gives (settingsOr m disk root given).run r := by
  unfold settingsOr
  cases given with
  | some settings => exact ⟨_, Gives.pure _⟩
  | none =>
    simp only
    split <;> exact ⟨_, Gives.pure _⟩

theorem around_gives (m : Machine) (disk : Tree) (git : Git) (here root : Path)
    (given : Option Settings) : ∃ r, Gives (around m disk git here root given).run r := by
  unfold around
  refine Gives.exists_bindT ⟨_, Gives.lift _⟩ fun root => ?_
  refine Gives.exists_bindT (topAround_gives disk git here root) fun top => ?_
  refine Gives.exists_bindT (settingsOr_gives m disk top given) fun settings => ?_
  exact ⟨_, Gives.pure _⟩

theorem analyseBranch_gives (r : Repository) (git : Git) (branch base : LooseText) :
    ∃ a, Gives (r.analyseBranch git branch base).run a := by
  unfold analyseBranch
  refine Gives.exists_bindT (changesBetween_gives git _ branch) fun changes => ?_
  refine Gives.exists_bindT (asked_gives (git.diffText_gives _ _ _)) fun diff => ?_
  refine Gives.exists_bindT ⟨_, Gives.lift _⟩ fun report => ?_
  refine Gives.exists_bindT (asked_gives (git.commitMessages_gives _ _ _)) fun log => ?_
  refine Gives.exists_bindT ⟨_, Gives.lift _⟩ fun contents => ?_
  exact ⟨_, Gives.pure _⟩

end Repository

end ChangeImpact
