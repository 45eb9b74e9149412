import ChangeImpact.Risk.Rules
import Mathlib.Data.List.Nodup
import Mathlib.Data.List.Sort
import Mathlib.Order.Basic

/-!
# The level of a score

The levels of a table are its entries with their least scores, in any order. A score has the level
of the entry with the greatest least score that it reaches. Where no two entries have the same
least score the order of the entries does not show, and where the levels rise with the least scores
a greater score has no lower level: `levelAt_spec`.
-/

namespace ChangeImpact.Risk

namespace Level

def rank : Level → Nat
  | low => 0
  | medium => 1
  | high => 2
  | critical => 3

theorem rank_injective : Function.Injective rank := by
  intro a b h
  cases a <;> cases b <;> simp_all [rank]

instance : PartialOrder Level := PartialOrder.lift rank rank_injective

instance : DecidableLE Level := fun a b => Nat.decLe a.rank b.rank

instance : DecidableLT Level := fun a b => Nat.decLt a.rank b.rank

theorem low_le (level : Level) : low ≤ level := Nat.zero_le level.rank

example : low < medium ∧ medium < high ∧ high < critical := by decide

end Level

namespace RuleTable

variable {t : RuleTable} {score : Int} {l m : LevelThreshold}

/-- Of the entries that the score reaches the entry has the greatest least score. -/
structure Decides (t : RuleTable) (score : Int) (l : LevelThreshold) : Prop where
  mem : l ∈ t.levels
  reached : l.minScore ≤ score
  greatest : ∀ m ∈ t.levels, m.minScore ≤ score → m.minScore ≤ l.minScore

def IsDistinct (t : RuleTable) : Prop := (t.levels.map (·.minScore)).Nodup

def IsRising (t : RuleTable) : Prop :=
  ∀ l ∈ t.levels, ∀ m ∈ t.levels, l.minScore < m.minScore → l.level ≤ m.level

def descending (t : RuleTable) : List LevelThreshold :=
  t.levels.mergeSort fun a b => b.minScore ≤ a.minScore

theorem mem_descending : l ∈ t.descending ↔ l ∈ t.levels := (List.mergeSort_perm _ _).mem_iff

theorem pairwise_descending (t : RuleTable) :
    t.descending.Pairwise fun a b => b.minScore ≤ a.minScore := by
  refine (List.pairwise_mergeSort ?_ ?_ t.levels).imp of_decide_eq_true
  · intro a b c hab hbc
    exact decide_eq_true ((of_decide_eq_true hbc).trans (of_decide_eq_true hab))
  · intro a b
    rw [← Bool.decide_or]
    exact decide_eq_true (Int.le_total _ _)

theorem decides_of_find? (h : t.descending.find? (·.minScore ≤ score) = some l) :
    t.Decides score l := by
  obtain ⟨hreached, above, below, hsplit, habove⟩ := List.find?_eq_some_iff_append.mp h
  have hsorted := t.pairwise_descending
  rw [hsplit] at hsorted
  refine ⟨mem_descending.mp (List.mem_of_find?_eq_some h), of_decide_eq_true hreached, ?_⟩
  intro m hm hmreached
  rw [← mem_descending, hsplit, List.mem_append, List.mem_cons] at hm
  rcases hm with hmabove | rfl | hmbelow
  · have hnot := habove m hmabove
    rw [decide_eq_true hmreached] at hnot
    cases hnot
  · exact Int.le_refl _
  · exact List.rel_of_pairwise_cons (List.pairwise_append.mp hsorted).2.1 hmbelow

theorem levelAt_cases (t : RuleTable) (score : Int) :
    (∃ l, t.Decides score l ∧ t.levelAt score = l.level) ∨
      (∀ l ∈ t.levels, score < l.minScore) ∧ t.levelAt score = .low := by
  cases h : t.descending.find? (·.minScore ≤ score) with
  | some l =>
    refine .inl ⟨l, decides_of_find? h, ?_⟩
    rw [descending] at h
    rw [levelAt, h]
  | none =>
    refine .inr ⟨fun l hl => ?_, ?_⟩
    · have hnot := List.find?_eq_none.mp h l (mem_descending.mpr hl)
      exact Int.not_le.mp fun hle => hnot (decide_eq_true hle)
    · rw [descending] at h
      rw [levelAt, h]

theorem Decides.unique (hdistinct : t.IsDistinct) (hl : t.Decides score l)
    (hm : t.Decides score m) : l = m :=
  List.inj_on_of_nodup_map hdistinct hl.mem hm.mem
    (Int.le_antisymm (hm.greatest l hl.mem hl.reached) (hl.greatest m hm.mem hm.reached))

theorem levelAt_eq_iff (hdistinct : t.IsDistinct) {level : Level} : t.levelAt score = level ↔
    (∃ l, t.Decides score l ∧ l.level = level) ∨
      (∀ l ∈ t.levels, score < l.minScore) ∧ level = .low := by
  constructor
  · rintro rfl
    rcases t.levelAt_cases score with ⟨l, hl, hlevel⟩ | ⟨hnone, hlow⟩
    exacts [.inl ⟨l, hl, hlevel.symm⟩, .inr ⟨hnone, hlow⟩]
  · intro h
    rcases t.levelAt_cases score with ⟨l, hl, hlevel⟩ | ⟨hnone, hlow⟩
    · rcases h with ⟨m, hm, rfl⟩ | ⟨hnone, -⟩
      · rw [hlevel, hl.unique hdistinct hm]
      · exact absurd hl.reached (Int.not_le.mpr (hnone l hl.mem))
    · rcases h with ⟨m, hm, -⟩ | ⟨-, rfl⟩
      · exact absurd hm.reached (Int.not_le.mpr (hnone m hm.mem))
      · exact hlow

theorem decides_perm {t' : RuleTable} (hperm : t'.levels.Perm t.levels) :
    t'.Decides score l ↔ t.Decides score l := by
  constructor
  · exact fun h => ⟨hperm.mem_iff.mp h.mem, h.reached,
      fun m hm => h.greatest m (hperm.mem_iff.mpr hm)⟩
  · exact fun h => ⟨hperm.mem_iff.mpr h.mem, h.reached,
      fun m hm => h.greatest m (hperm.mem_iff.mp hm)⟩

theorem levelAt_perm (hdistinct : t.IsDistinct) {t' : RuleTable}
    (hperm : t'.levels.Perm t.levels) (score : Int) : t'.levelAt score = t.levelAt score := by
  have hdistinct' : t'.IsDistinct := (hperm.map _).nodup_iff.mpr hdistinct
  rw [levelAt_eq_iff hdistinct']
  simp only [decides_perm hperm, hperm.mem_iff]
  exact (levelAt_eq_iff hdistinct).mp rfl

/-- A greater score reaches the entry of the smaller one, so that its own entry is not below. -/
theorem levelAt_mono (hdistinct : t.IsDistinct) (hrising : t.IsRising) {greater : Int}
    (hle : score ≤ greater) : t.levelAt score ≤ t.levelAt greater := by
  rcases t.levelAt_cases score with ⟨l, hl, hlevel⟩ | ⟨-, hlow⟩
  · have hreached : l.minScore ≤ greater := hl.reached.trans hle
    rcases t.levelAt_cases greater with ⟨m, hm, hlevel'⟩ | ⟨hnone, -⟩
    · rw [hlevel, hlevel']
      rcases (hm.greatest l hl.mem hreached).lt_or_eq with hlt | heq
      · exact hrising l hl.mem m hm.mem hlt
      · rw [List.inj_on_of_nodup_map hdistinct hl.mem hm.mem heq]
    · exact absurd hreached (Int.not_le.mpr (hnone l hl.mem))
  · rw [hlow]
    exact Level.low_le _

/-- A score has the level of the entry with the greatest least score that it reaches, and the
lowest level if it reaches none; the order of the entries does not show; and the levels rise with
the scores if those of the entries do. -/
theorem levelAt_spec (t : RuleTable) (hdistinct : t.IsDistinct) :
    (∀ score level, t.levelAt score = level ↔
      (∃ l, t.Decides score l ∧ l.level = level) ∨
        (∀ l ∈ t.levels, score < l.minScore) ∧ level = .low) ∧
    (∀ t' : RuleTable, t'.levels.Perm t.levels → ∀ score, t'.levelAt score = t.levelAt score) ∧
    (t.IsRising → ∀ score greater, score ≤ greater → t.levelAt score ≤ t.levelAt greater) :=
  ⟨fun _ _ => levelAt_eq_iff hdistinct, fun _ => levelAt_perm hdistinct,
    fun hrising _ _ => levelAt_mono hdistinct hrising⟩

def scattered : List LevelThreshold :=
  [⟨6, .high⟩, ⟨-40, .low⟩, ⟨Int.pow 10 30, .critical⟩, ⟨-3, .medium⟩, ⟨7, .high⟩]

theorem levelAt_spec_scattered : IsDistinct { levels := scattered } ∧
    (∀ score greater, score ≤ greater →
      levelAt { levels := scattered } score ≤ levelAt { levels := scattered } greater) ∧
    levelAt { levels := scattered } (-41) = .low ∧
    levelAt { levels := scattered.reverse } (Int.pow 10 30 - 1) = .high := by
  have hdistinct : IsDistinct { levels := scattered } := by
    rw [IsDistinct]
    decide
  have hrising : IsRising { levels := scattered } := by
    rw [IsRising]
    decide
  obtain ⟨hspec, hperm, hmonotone⟩ := levelAt_spec { levels := scattered } hdistinct
  refine ⟨hdistinct, hmonotone hrising, (hspec _ _).mpr (.inr ⟨by decide, rfl⟩), ?_⟩
  rw [hperm _ (List.reverse_perm scattered)]
  exact (hspec _ _).mpr (.inl ⟨⟨7, .high⟩, ⟨by decide, by decide, by decide⟩, rfl⟩)

end RuleTable

end ChangeImpact.Risk
