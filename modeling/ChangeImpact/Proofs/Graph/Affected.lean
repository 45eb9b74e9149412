import ChangeImpact.Proofs.Graph.Search
import Mathlib.Data.List.Nodup

/-!
# All searches of a change

Each changed file has a search of its own, which starts with what the searches before it have
seen (`searchAll_entry`). Together they meet no file twice and none of the files that are known
from the start, the changed ones and their dependents. From these facts follow what is reached
by walks and what is lost.
-/

namespace ChangeImpact

namespace Impact

def metBy (g : ImportGraph) (levels : Nat) (seen changed : List String) :
    List (String × Int) :=
  (searchAll g levels seen changed).flatMap (·.2)

theorem metBy_cons (g : ImportGraph) (levels : Nat) (seen : List String) (p : String)
    (r : List String) :
    metBy g levels seen (p :: r) = (search g levels 0 (g.dependentsOf p) seen).1 ++
      metBy g levels (search g levels 0 (g.dependentsOf p) seen).2 r := by
  simp [metBy, searchAll]

theorem metBy_spec (g : ImportGraph) (levels : Nat) (seen changed : List String) :
    ((metBy g levels seen changed).map (·.1)).Nodup ∧
      ∀ m ∈ metBy g levels seen changed, m.1 ∉ seen ∧ 0 < m.2 ∧ m.2 ≤ levels := by
  induction changed generalizing seen with
  | nil => simp [metBy, searchAll]
  | cons p r ih =>
    have hs := search_searched g levels 0 (g.dependentsOf p) seen
    obtain ⟨hnd, hm⟩ := ih (search g levels 0 (g.dependentsOf p) seen).2
    rw [metBy_cons]
    refine ⟨?_, fun m hmem => ?_⟩
    · rw [List.map_append, List.nodup_append]
      refine ⟨hs.nodup, hnd, ?_⟩
      intro x hx _ hy heq
      obtain rfl := heq
      obtain ⟨m, hmr, rfl⟩ := List.mem_map.mp hy
      exact (hm m hmr).1 ((hs.mem_seen _).mpr (.inr hx))
    · rcases List.mem_append.mp hmem with hf | hr
      · have hb := hs.depth_bounds m hf
        push_cast at hb
        exact ⟨hs.notMem_seen m hf, by omega, by omega⟩
      · exact ⟨fun hms => (hm m hr).1 ((hs.mem_seen _).mpr (.inl hms)), (hm m hr).2⟩

theorem exists_entry {g : ImportGraph} {levels : Nat} {seen changed : List String} {p : String}
    (hp : p ∈ changed) : ∃ found, (p, found) ∈ searchAll g levels seen changed := by
  induction changed generalizing seen with
  | nil => simp at hp
  | cons q r ih =>
    rcases List.mem_cons.mp hp with rfl | hr
    · exact ⟨_, List.mem_cons_self⟩
    · obtain ⟨found, h⟩ := @ih (search g levels 0 (g.dependentsOf q) seen).2 hr
      exact ⟨found, List.mem_cons_of_mem _ h⟩

/-- Each entry is a search from a changed file. What it takes for seen is what is known from the
start and part of what is met. -/
theorem searchAll_entry {g : ImportGraph} {levels : Nat} {seen changed : List String} {p : String}
    {found : List (String × Int)} (h : (p, found) ∈ searchAll g levels seen changed) :
    p ∈ changed ∧ ∃ before, (search g levels 0 (g.dependentsOf p) before).1 = found ∧
      seen ⊆ before ∧
      ∀ x ∈ before, x ∈ seen ∨ x ∈ (metBy g levels seen changed).map (·.1) := by
  induction changed generalizing seen with
  | nil => simp [searchAll] at h
  | cons q r ih =>
    have hs := search_searched g levels 0 (g.dependentsOf q) seen
    rcases List.mem_cons.mp h with h | h
    · obtain ⟨rfl, rfl⟩ := Prod.mk.inj h
      exact ⟨List.mem_cons_self, seen, rfl, fun _ => id, fun _ => .inl⟩
    · obtain ⟨hp, before, hsearch, hsub, hout⟩ := ih h
      refine ⟨List.mem_cons_of_mem _ hp, before, hsearch,
        fun x hx => hsub ((hs.mem_seen x).mpr (.inl hx)), fun x hx => ?_⟩
      simp only [metBy_cons, List.map_append, List.mem_append]
      rcases hout x hx with hx | hx
      · exact ((hs.mem_seen x).mp hx).imp id .inl
      · exact .inr (.inr hx)

theorem mem_metBy {g : ImportGraph} {levels : Nat} {seen changed : List String}
    {m : String × Int} :
    m ∈ metBy g levels seen changed ↔
      ∃ p found, (p, found) ∈ searchAll g levels seen changed ∧ m ∈ found := by
  simp only [metBy, List.mem_flatMap, Prod.exists]

/-- A file met at depth `e` lies at the end of a walk of `e + 1` steps, and what is passed on the
way is a dependent of the start or met at a lower depth. -/
theorem Searched.walk {g : ImportGraph} {levels : Nat} {p : String} {before seen' : List String}
    {found : List (String × Int)} {imports : String → String → Prop} {inner : String → Prop}
    (h : Searched g levels 0 (g.dependentsOf p) before found seen')
    (himports : ∀ x y, y ∈ g.dependentsOf x → imports y x)
    (hdirect : ∀ q ∈ g.dependentsOf p, inner q)
    (hfound : ∀ m ∈ found, m.2 < levels → inner m.1) :
    ∀ (e : Nat) (x : String), (x, (e : Int)) ∈ found → Walk imports inner p (e + 1) x := by
  intro e
  induction e with
  | zero =>
    intro x hx
    have := h.depth_bounds _ hx
    simp at this
  | succ e ih =>
    intro x hx
    have hbounds := (h.depth_bounds _ hx).2
    rcases h.parent_succ hx with ⟨rfl, q, hq, hxq⟩ | ⟨q, hq, hxq⟩
    · exact .next (.first (himports _ _ hq)) (hdirect q hq) (himports _ _ hxq)
    · have hinner := hfound _ hq (by push_cast at hbounds ⊢; omega)
      exact .next (ih q hq) hinner (himports _ _ hxq)

/-- A search that starts with nothing seen but its file and the direct dependents meets every
file no later than any walk does. -/
theorem Searched.meets {g : ImportGraph} {levels : Nat} {p : String} {before seen' : List String}
    {found : List (String × Int)}
    (h : Searched g levels 0 (g.dependentsOf p) before found seen')
    (hbefore : ∀ x ∈ before, x = p ∨ x ∈ g.dependentsOf p) {n : Nat} {x : String}
    (hw : Walk (fun y z => y ∈ g.dependentsOf z) (fun _ => True) p n x) (hn : n ≤ levels + 1) :
    x = p ∨ x ∈ g.dependentsOf p ∨ ∃ e : Int, e + 1 ≤ n ∧ (x, e) ∈ found := by
  induction hw with
  | here => exact .inl rfl
  | first hy => exact .inr (.inl hy)
  | @next n x y _ _ hy ih =>
    rcases ih (by omega) with rfl | hx | ⟨e, he, hx⟩
    · exact .inr (.inl hy)
    · rcases h.opens_frontier (by omega) x hx y hy with hb | hf
      · exact (hbefore y hb).imp id .inl
      · exact .inr (.inr ⟨_, by push_cast; omega, hf⟩)
    · rcases h.opens _ hx (by push_cast at he ⊢; omega) y hy with hb | ⟨e', he', hf⟩
      · exact (hbefore y hb).imp id .inl
      · exact .inr (.inr ⟨e', by push_cast at he ⊢; omega, hf⟩)

end Impact

namespace ImportGraph

open Impact

def known (g : ImportGraph) (changed : List String) : List String :=
  changed.eraseDups ++ (changed.eraseDups.map fun p => (p, g.dependentsOf p)).flatMap (·.2)

variable {g : ImportGraph} {levels : Nat} {changed : List String}

theorem mem_known {x : String} :
    x ∈ g.known changed ↔ x ∈ changed ∨ ∃ p ∈ changed, x ∈ g.dependentsOf p := by
  simp [known]

theorem depths_affected :
    (g.affected levels changed).depths =
      metBy g levels (g.known changed) changed.eraseDups := rfl

theorem mem_allAffected {x : String} :
    x ∈ (g.affected levels changed).allAffected ↔
      x ∈ g.known changed ∨ x ∈ (g.affected levels changed).depths.map (·.1) := by
  have hi : x ∈ ((searchAll g levels (g.known changed) changed.eraseDups).map
      fun e => (e.1, e.2.map (·.1))).flatMap (·.2) ↔
      x ∈ (metBy g levels (g.known changed) changed.eraseDups).map (·.1) := by
    rw [metBy, List.map_flatMap, List.flatMap_map]
  rw [depths_affected, ← hi, ← List.mem_append]
  exact List.mem_eraseDups

theorem notMem_depths_of_known {x : String} (h : x ∈ g.known changed) (e : Int) :
    (x, e) ∉ (g.affected levels changed).depths := fun hx =>
  ((metBy_spec g levels (g.known changed) changed.eraseDups).2 _ hx).1 h

theorem depth_unique {x : String} {e e' : Int}
    (h : (x, e) ∈ (g.affected levels changed).depths)
    (h' : (x, e') ∈ (g.affected levels changed).depths) : e = e' := by
  have hnd := (metBy_spec g levels (g.known changed) changed.eraseDups).1
  have := List.inj_on_of_nodup_map hnd h h' rfl
  exact congrArg Prod.snd this

theorem walk_of_mem_depths {x : String} {e : Int}
    (h : (x, e) ∈ (g.affected levels changed).depths) :
    ∃ p ∈ changed, ∃ n ≤ levels + 1, Walk (fun y z => y ∈ g.dependentsOf z)
      (fun z => (z, (levels : Int)) ∉ (g.affected levels changed).depths) p n x := by
  have hb := (metBy_spec g levels (g.known changed) changed.eraseDups).2 _ h
  obtain ⟨p, found, hmem, hx⟩ := mem_metBy.mp h
  obtain ⟨hp, before, rfl, _⟩ := searchAll_entry hmem
  have hs := search_searched g levels 0 (g.dependentsOf p) before
  have hp' : p ∈ changed := List.mem_eraseDups.mp hp
  obtain ⟨n, rfl⟩ : ∃ n : Nat, e = n :=
    ⟨e.toNat, (Int.toNat_of_nonneg (Int.le_of_lt hb.2.1)).symm⟩
  refine ⟨p, hp', n + 1, by have := hb.2.2; simp only at this; omega,
    hs.walk (fun _ _ => id) (fun q hq => ?_) (fun m hm hlt hlast => ?_) n x hx⟩
  · exact notMem_depths_of_known (mem_known.mpr (.inr ⟨p, hp', hq⟩)) _
  · have hm' : m ∈ (g.affected levels changed).depths := mem_metBy.mpr ⟨p, _, hmem, hm⟩
    have := depth_unique (x := m.1) (e := m.2) hm' hlast
    omega

theorem opens_direct (hl : 0 < levels) {p q x : String} (hp : p ∈ changed)
    (hq : q ∈ g.dependentsOf p) (hx : x ∈ g.dependentsOf q) :
    x ∈ (g.affected levels changed).allAffected := by
  obtain ⟨found, hmem⟩ : ∃ found, (p, found) ∈ searchAll g levels (g.known changed)
      changed.eraseDups := exists_entry (List.mem_eraseDups.mpr hp)
  obtain ⟨_, before, rfl, _, hout⟩ := searchAll_entry hmem
  have hs := search_searched g levels 0 (g.dependentsOf p) before
  rw [mem_allAffected]
  rcases hs.opens_frontier hl q hq x hx with hb | hf
  · exact hout x hb
  · exact .inr (List.mem_map.mpr ⟨_, mem_metBy.mpr ⟨p, _, hmem, hf⟩, rfl⟩)

theorem opens_met {q x : String} {e : Int} (hq : (q, e) ∈ (g.affected levels changed).depths)
    (he : e < levels) (hx : x ∈ g.dependentsOf q) :
    x ∈ (g.affected levels changed).allAffected := by
  obtain ⟨p, found, hmem, hqf⟩ := mem_metBy.mp hq
  obtain ⟨_, before, rfl, _, hout⟩ := searchAll_entry hmem
  have hs := search_searched g levels 0 (g.dependentsOf p) before
  rw [mem_allAffected]
  rcases hs.opens _ hqf (by push_cast; omega) x hx with hb | ⟨e', _, hf⟩
  · exact hout x hb
  · exact .inr (List.mem_map.mpr ⟨_, mem_metBy.mpr ⟨p, _, hmem, hf⟩, rfl⟩)

theorem mem_allAffected_of_walk {p : String} (hp : p ∈ changed) {n : Nat} {x : String}
    (hw : Walk (fun y z => y ∈ g.dependentsOf z)
      (fun z => (z, (levels : Int)) ∉ (g.affected levels changed).depths) p n x)
    (hn : n ≤ levels + 1) : x ∈ (g.affected levels changed).allAffected := by
  induction hw with
  | here => exact mem_allAffected.mpr (.inl (mem_known.mpr (.inl hp)))
  | first hy => exact mem_allAffected.mpr (.inl (mem_known.mpr (.inr ⟨p, hp, hy⟩)))
  | @next n x y _ hinner hy ih =>
    rcases mem_allAffected.mp (ih (by omega)) with hk | hd
    · rcases mem_known.mp hk with hc | ⟨q, hq, hx⟩
      · exact mem_allAffected.mpr (.inl (mem_known.mpr (.inr ⟨x, hc, hy⟩)))
      · exact opens_direct (by omega) hq hx hy
    · obtain ⟨m, hm, rfl⟩ := List.mem_map.mp hd
      have hb := (metBy_spec g levels (g.known changed) changed.eraseDups).2 m hm
      have hne : m.2 ≠ levels := fun h => hinner (h ▸ hm)
      exact opens_met hm (by omega) hy

theorem mem_allAffected_iff_walk {x : String} :
    x ∈ (g.affected levels changed).allAffected ↔
      ∃ p ∈ changed, ∃ n ≤ levels + 1, Walk (fun y z => y ∈ g.dependentsOf z)
        (fun z => (z, (levels : Int)) ∉ (g.affected levels changed).depths) p n x := by
  constructor
  · intro h
    rcases mem_allAffected.mp h with hk | hd
    · rcases mem_known.mp hk with hc | ⟨p, hp, hx⟩
      · exact ⟨x, hc, 0, by omega, .here⟩
      · exact ⟨p, hp, 1, by omega, .first hx⟩
    · obtain ⟨m, hm, rfl⟩ := List.mem_map.mp hd
      exact walk_of_mem_depths hm
  · intro hwalk
    obtain ⟨p, hp, n, hn, hw⟩ := hwalk
    exact mem_allAffected_of_walk hp hw hn

theorem mem_allAffected_of_levels_le_one (hl : levels ≤ 1) {p : String} (hp : p ∈ changed)
    {n : Nat} (hn : n ≤ levels + 1) {x : String}
    (hw : Walk (fun y z => y ∈ g.dependentsOf z) (fun _ => True) p n x) :
    x ∈ (g.affected levels changed).allAffected := by
  refine mem_allAffected_of_walk hp (n := n) ?_ hn
  cases hw with
  | here => exact .here
  | first hy => exact .first hy
  | @next n x _ hw _ hy =>
    -- Its only inner file is a dependent of the start, which no search lists.
    obtain rfl : n = 0 := by omega
    cases hw with
    | first hx =>
      exact .next (.first hx) (notMem_depths_of_known (mem_known.mpr (.inr ⟨p, hp, hx⟩)) _) hy

theorem eraseDups_eq_singleton {p : String} (hp : p ∈ changed) (h : ∀ q ∈ changed, q = p) :
    changed.eraseDups = [p] := by
  have hall : ∀ q ∈ changed.eraseDups, q = p := fun q hq => h q (List.mem_eraseDups.mp hq)
  have hmem : p ∈ changed.eraseDups := List.mem_eraseDups.mpr hp
  have hnd := nodup_eraseDups changed
  rw [List.eq_replicate_of_mem hall] at hnd hmem ⊢
  have hlen := List.nodup_replicate.mp hnd
  have hpos : changed.eraseDups.length ≠ 0 := (List.mem_replicate.mp hmem).1
  rw [show changed.eraseDups.length = 1 by omega, List.replicate_one]

/-- Where one file is changed, there is one search, and only that file and its dependents are seen
before it. -/
theorem single_search (g : ImportGraph) (levels : Nat) {p : String} (hp : p ∈ changed)
    (hone : ∀ q ∈ changed, q = p) :
    Searched g levels 0 (g.dependentsOf p) (g.known changed) (g.affected levels changed).depths
        (search g levels 0 (g.dependentsOf p) (g.known changed)).2 ∧
      ∀ y ∈ g.known changed, y = p ∨ y ∈ g.dependentsOf p := by
  have hone' := eraseDups_eq_singleton hp hone
  have hs := search_searched g levels 0 (g.dependentsOf p) (g.known changed)
  have hdepths : (g.affected levels changed).depths =
      (search g levels 0 (g.dependentsOf p) (g.known changed)).1 := by
    rw [depths_affected, hone', metBy_cons]
    simp [metBy, searchAll]
  refine ⟨hdepths ▸ hs, ?_⟩
  simp only [known, hone']
  simp

theorem mem_allAffected_of_single {p : String} (hp : p ∈ changed) (hone : ∀ q ∈ changed, q = p)
    {n : Nat} (hn : n ≤ levels + 1) {x : String}
    (hw : Walk (fun y z => y ∈ g.dependentsOf z) (fun _ => True) p n x) :
    x ∈ (g.affected levels changed).allAffected := by
  obtain ⟨hs, hknown⟩ := single_search g levels hp hone
  rw [mem_allAffected]
  rcases hs.meets hknown hw hn with rfl | hx | ⟨e, _, hx⟩
  · exact .inl (mem_known.mpr (.inl hp))
  · exact .inl (mem_known.mpr (.inr ⟨p, hp, hx⟩))
  · exact .inr (List.mem_map.mpr ⟨_, hx, rfl⟩)

theorem impactOf_natCast (g : ImportGraph) (levels : Nat) (changed : List String) :
    g.impactOf levels changed = .ok (g.affected levels changed) := by
  simp [impactOf]

/-- What is affected are the ends of the walks of at most `levels + 1` steps that pass no file
met at the last level. Where there are not two levels or not two changed files, every walk of
that length counts. -/
theorem mem_allAffected_iff (calls : List Recording) (levels : Nat) (changed : List String) :
    ∃ r, (after calls).impactOf levels changed = .ok r ∧
      (∀ x, x ∈ r.allAffected ↔ ∃ p ∈ changed, ∃ n ≤ levels + 1,
        Walk (Recorded calls) (fun z => (z, (levels : Int)) ∉ r.depths) p n x) ∧
      ((levels ≤ 1 ∨ ∃ p, ∀ q ∈ changed, q = p) → ∀ p ∈ changed, ∀ n ≤ levels + 1, ∀ x,
        Walk (Recorded calls) (fun _ => True) p n x → x ∈ r.allAffected) := by
  rw [recorded_eq]
  refine ⟨_, impactOf_natCast _ levels changed, fun x => mem_allAffected_iff_walk,
    fun hfew p hp n hn x hw => ?_⟩
  rcases hfew with hl | ⟨q, hq⟩
  · exact mem_allAffected_of_levels_le_one hl hp hn hw
  · exact mem_allAffected_of_single hp (fun z hz => (hq z hz).trans (hq p hp).symm) hn hw

def crossing : List Recording :=
  [.batch [("parser.ts", some "lexer.ts"), ("checker.ts", some "parser.ts"),
    ("cli.ts", some "checker.ts"), ("printer.ts", some "doc.ts"), ("cli.ts", some "printer.ts"),
    ("main.ts", some "cli.ts")]]

theorem crossing_loses_main :
    ∃ r, (after crossing).impactOf 2 ["lexer.ts", "doc.ts"] = .ok r ∧
      Walk (Recorded crossing) (fun _ => True) "doc.ts" 3 "main.ts" ∧
      "main.ts" ∉ r.allAffected := by
  have h1 : Recorded crossing "printer.ts" "doc.ts" := by decide
  have h2 : Recorded crossing "cli.ts" "printer.ts" := by decide
  have h3 : Recorded crossing "main.ts" "cli.ts" := by decide
  exact ⟨_, rfl, .next (.next (.first h1) trivial h2) trivial h3, by decide⟩

end ImportGraph

end ChangeImpact
