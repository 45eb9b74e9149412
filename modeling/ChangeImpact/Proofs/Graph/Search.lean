import ChangeImpact.Graph.Impact
import ChangeImpact.Proofs.Graph.Edges

/-!
# Which files the impact search meets

A walk leads from a changed file to a file that imports it, from there to one that imports that
file, and so on. One search meets what it meets level by level (`Searched`); the searches of
several changed files share what has been seen. A file that one of them meets at the last level
is seen and never opened, so walks through it are lost to the searches that follow.
`mem_allAffected_iff` says that nothing else is lost.
-/

namespace ChangeImpact

/-- `n` steps from a file to one that imports it lead from `start` to `y`; the files strictly
between them satisfy `inner`. -/
inductive Walk (imports : String → String → Prop) (inner : String → Prop) (start : String) :
    Nat → String → Prop
  | here : Walk imports inner start 0 start
  | first {y : String} : imports y start → Walk imports inner start 1 y
  | next {n : Nat} {x y : String} :
      Walk imports inner start (n + 1) x → inner x → imports y x →
        Walk imports inner start (n + 2) y

namespace Impact

variable {g : ImportGraph}

theorem mem_fresh_snd {seen files : List String} {x : String} :
    x ∈ (fresh seen files).2 ↔ x ∈ seen ∨ x ∈ files := by
  induction files generalizing seen with
  | nil => simp [fresh]
  | cons p r ih =>
    simp only [fresh]
    split
    next h =>
      rw [List.contains_iff_mem] at h
      grind
    next => simp only [ih]; grind

theorem mem_fresh_fst {seen files : List String} {x : String} :
    x ∈ (fresh seen files).1 ↔ x ∈ files ∧ x ∉ seen := by
  induction files generalizing seen with
  | nil => simp [fresh]
  | cons p r ih =>
    simp only [fresh]
    split
    next h =>
      rw [List.contains_iff_mem] at h
      grind
    next h =>
      rw [List.contains_iff_mem] at h
      simp only [List.mem_cons, ih]
      grind

theorem nodup_fresh_fst (seen files : List String) : (fresh seen files).1.Nodup := by
  induction files generalizing seen with
  | nil => simp [fresh]
  | cons p r ih =>
    simp only [fresh]
    split
    next => exact ih seen
    next => simp [ih, mem_fresh_fst]

/-- What a search from `frontier` has met after `levels` levels: `found`, with depths counted
from `depth` on, and all that has been seen, `seen'`. -/
structure Searched (g : ImportGraph) (levels depth : Nat) (frontier seen : List String)
    (found : List (String × Int)) (seen' : List String) : Prop where
  mem_seen : ∀ x, x ∈ seen' ↔ x ∈ seen ∨ x ∈ found.map (·.1)
  nodup : (found.map (·.1)).Nodup
  notMem_seen : ∀ m ∈ found, m.1 ∉ seen
  depth_bounds : ∀ m ∈ found, (depth : Int) < m.2 ∧ m.2 ≤ depth + levels
  parent : ∀ m ∈ found,
    (m.2 = depth + 1 ∧ ∃ q ∈ frontier, m.1 ∈ g.dependentsOf q) ∨
      ∃ q, (q, m.2 - 1) ∈ found ∧ m.1 ∈ g.dependentsOf q
  opens_frontier : 0 < levels → ∀ q ∈ frontier, ∀ x ∈ g.dependentsOf q,
    x ∈ seen ∨ (x, (depth : Int) + 1) ∈ found
  opens : ∀ m ∈ found, m.2 < depth + levels → ∀ x ∈ g.dependentsOf m.1,
    x ∈ seen ∨ ∃ e ≤ m.2 + 1, (x, e) ∈ found

theorem searched_nil (g : ImportGraph) (levels depth : Nat) {frontier : List String}
    (seen : List String) (h : levels = 0 ∨ frontier = []) :
    Searched g levels depth frontier seen [] seen := by
  refine ⟨by simp, by simp, by simp, by simp, by simp, fun hl q hq => ?_, by simp⟩
  rcases h with rfl | rfl
  · exact absurd hl (Nat.lt_irrefl 0)
  · simp at hq

/-- `next` are the dependents of `frontier` that are new, and `seen₁` is what has been seen with
them. -/
structure NextLevel (g : ImportGraph) (frontier seen next seen₁ : List String) : Prop where
  mem_next : ∀ x, x ∈ next ↔ (∃ q ∈ frontier, x ∈ g.dependentsOf q) ∧ x ∉ seen
  mem_seen : ∀ x, x ∈ seen₁ ↔ x ∈ seen ∨ x ∈ next
  nodup : next.Nodup

theorem nextLevel_fresh (g : ImportGraph) (frontier seen : List String) :
    NextLevel g frontier seen (fresh seen (frontier.flatMap g.dependentsOf)).1
      (fresh seen (frontier.flatMap g.dependentsOf)).2 where
  mem_next x := by rw [mem_fresh_fst, List.mem_flatMap]
  mem_seen x := by
    rw [mem_fresh_snd, mem_fresh_fst]
    by_cases h : x ∈ seen <;> simp [h]
  nodup := nodup_fresh_fst _ _

def metAt (depth : Nat) (files : List String) : List (String × Int) :=
  files.map fun p => (p, (depth : Int))

theorem map_fst_metAt (depth : Nat) (files : List String) :
    (metAt depth files).map (·.1) = files := by
  rw [metAt, List.map_map]
  exact List.map_id files

theorem mem_metAt {depth : Nat} {files : List String} {m : String × Int} :
    m ∈ metAt depth files ↔ m.1 ∈ files ∧ m.2 = depth := by
  obtain ⟨x, d⟩ := m
  simp [metAt, eq_comm]

section Level

variable {levels depth : Nat} {frontier seen next seen₁ seen' : List String}
  {more : List (String × Int)}

theorem Searched.nodup_level (h : Searched g levels (depth + 1) next seen₁ more seen')
    (hn : NextLevel g frontier seen next seen₁) :
    ((metAt (depth + 1) next ++ more).map (·.1)).Nodup := by
  rw [List.map_append, map_fst_metAt]
  refine List.nodup_append.mpr ⟨hn.nodup, h.nodup, ?_⟩
  rintro x hx _ hy rfl
  obtain ⟨m, hm, rfl⟩ := List.mem_map.mp hy
  exact h.notMem_seen m hm ((hn.mem_seen _).mpr (.inr hx))

theorem Searched.parent_level (h : Searched g levels (depth + 1) next seen₁ more seen')
    (hn : NextLevel g frontier seen next seen₁) :
    ∀ m ∈ metAt (depth + 1) next ++ more,
      (m.2 = depth + 1 ∧ ∃ q ∈ frontier, m.1 ∈ g.dependentsOf q) ∨
        ∃ q, (q, m.2 - 1) ∈ metAt (depth + 1) next ++ more ∧ m.1 ∈ g.dependentsOf q := by
  intro m hm
  rcases List.mem_append.mp hm with hm | hm
  · obtain ⟨hx, he⟩ := mem_metAt.mp hm
    exact .inl ⟨he, ((hn.mem_next m.1).mp hx).1⟩
  · right
    rcases h.parent m hm with ⟨he, q, hq, hmq⟩ | ⟨q, hq, hmq⟩
    · exact ⟨q, List.mem_append_left _ (mem_metAt.mpr ⟨hq, by rw [he]; omega⟩), hmq⟩
    · exact ⟨q, List.mem_append_right _ hq, hmq⟩

/-- What was seen when the level behind was searched was seen before, or it is met at this level. -/
theorem NextLevel.met_of_seen (hn : NextLevel g frontier seen next seen₁) {x : String} {e : Int}
    (hx : x ∈ seen₁) (he : ((depth + 1 : Nat) : Int) ≤ e) :
    x ∈ seen ∨ ∃ e' ≤ e, (x, e') ∈ metAt (depth + 1) next ++ more :=
  ((hn.mem_seen x).mp hx).imp id fun hxn =>
    ⟨_, he, List.mem_append_left _ (mem_metAt.mpr ⟨hxn, rfl⟩)⟩

theorem Searched.opens_level (h : Searched g levels (depth + 1) next seen₁ more seen')
    (hn : NextLevel g frontier seen next seen₁) :
    ∀ m ∈ metAt (depth + 1) next ++ more, m.2 < depth + (levels + 1 : Nat) →
      ∀ x ∈ g.dependentsOf m.1,
        x ∈ seen ∨ ∃ e ≤ m.2 + 1, (x, e) ∈ metAt (depth + 1) next ++ more := by
  intro m hm hlt x hx
  rcases List.mem_append.mp hm with hm | hm
  · obtain ⟨hmn, he⟩ := mem_metAt.mp hm
    rcases h.opens_frontier (by omega) m.1 hmn x hx with hseen | hmore
    · exact hn.met_of_seen hseen (by omega)
    · exact .inr ⟨_, by omega, List.mem_append_right _ hmore⟩
  · have hdepth := (h.depth_bounds m hm).1
    rcases h.opens m hm (by omega) x hx with hseen | ⟨e, he, hmore⟩
    · exact hn.met_of_seen hseen (by omega)
    · exact .inr ⟨e, he, List.mem_append_right _ hmore⟩

/-- One more level in front of a search: the new files of the frontier's dependents. -/
theorem Searched.level (h : Searched g levels (depth + 1) next seen₁ more seen')
    (hn : NextLevel g frontier seen next seen₁) :
    Searched g (levels + 1) depth frontier seen (metAt (depth + 1) next ++ more) seen' where
  mem_seen x := by
    rw [h.mem_seen, hn.mem_seen, List.map_append, map_fst_metAt, List.mem_append, or_assoc]
  nodup := h.nodup_level hn
  notMem_seen m hm := by
    rcases List.mem_append.mp hm with hm | hm
    · exact ((hn.mem_next m.1).mp (mem_metAt.mp hm).1).2
    · exact fun hseen => h.notMem_seen m hm ((hn.mem_seen m.1).mpr (.inl hseen))
  depth_bounds m hm := by
    rcases List.mem_append.mp hm with hm | hm
    · have he := (mem_metAt.mp hm).2
      omega
    · have hbounds := h.depth_bounds m hm
      omega
  parent := h.parent_level hn
  opens_frontier _ q hq x hx := by
    by_cases hseen : x ∈ seen
    · exact .inl hseen
    · have hnext := (hn.mem_next x).mpr ⟨⟨q, hq, hx⟩, hseen⟩
      exact .inr (List.mem_append_left _ (mem_metAt.mpr ⟨hnext, rfl⟩))
  opens := h.opens_level hn

end Level

theorem Searched.parent_succ {levels depth : Nat} {frontier seen seen' : List String}
    {found : List (String × Int)} (h : Searched g levels depth frontier seen found seen')
    {e : Nat} {x : String} (hx : (x, ((e + 1 : Nat) : Int)) ∈ found) :
    (e = depth ∧ ∃ q ∈ frontier, x ∈ g.dependentsOf q) ∨
      ∃ q, (q, (e : Int)) ∈ found ∧ x ∈ g.dependentsOf q := by
  have hdepth : ((e + 1 : Nat) : Int) - 1 = e := by omega
  rcases h.parent _ hx with ⟨he, hq⟩ | ⟨q, hq, hxq⟩
  · dsimp only at he
    exact .inl ⟨by omega, hq⟩
  · exact .inr ⟨q, hdepth ▸ hq, hxq⟩

theorem search_searched (g : ImportGraph) (levels depth : Nat) (frontier seen : List String) :
    Searched g levels depth frontier seen (search g levels depth frontier seen).1
      (search g levels depth frontier seen).2 := by
  induction levels generalizing depth frontier seen with
  | zero => exact searched_nil g 0 depth seen (.inl rfl)
  | succ n ih =>
    cases frontier with
    | nil => exact searched_nil g (n + 1) depth seen (.inr rfl)
    | cons p r => exact (ih (depth + 1) _ _).level (nextLevel_fresh g (p :: r) seen)

end Impact

end ChangeImpact
