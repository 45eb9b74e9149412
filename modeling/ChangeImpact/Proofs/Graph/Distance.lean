import ChangeImpact.Proofs.Graph.Lists

/-!
# Distances

Where one file is changed, the search is a breadth-first search from it: what it lists are the
files up to a distance, each at its distance (`impactOf_single`). Where several are, one more level
can also lose a file (`impactOf_deeper`).
-/

namespace ChangeImpact

/-- The shortest walk from `start` to `y` has `n` steps. -/
structure Distance (imports : String → String → Prop) (start : String) (n : Nat) (y : String) :
    Prop where
  walk : Walk imports (fun _ => True) start n y
  least : ∀ m, Walk imports (fun _ => True) start m y → n ≤ m

theorem Distance.unique {imports : String → String → Prop} {start y : String} {m n : Nat}
    (h : Distance imports start m y) (h' : Distance imports start n y) : m = n :=
  le_antisymm (h.least n h'.walk) (h'.least m h.walk)

theorem Distance.one_iff {imports : String → String → Prop} {start y : String}
    (hself : ¬imports start start) : Distance imports start 1 y ↔ imports y start := by
  constructor
  · intro h
    cases h.walk with
    | first hy => exact hy
  · intro hy
    refine ⟨.first hy, fun m hw => ?_⟩
    cases hw with
    | here => exact absurd hy hself
    | first _ => exact le_rfl
    | next _ _ _ => omega

namespace ImportGraph

open Impact

section

variable {g : ImportGraph} {levels : Nat} {changed : List String} {p : String}

theorem distance_of_mem_depths (hp : p ∈ changed) (hone : ∀ q ∈ changed, q = p) {e : Nat}
    {x : String} (hx : (x, (e : Int)) ∈ (g.affected levels changed).depths) :
    Distance (fun y z => y ∈ g.dependentsOf z) p (e + 1) x := by
  obtain ⟨hs, hknown⟩ := single_search g levels hp hone
  have hb := hs.depth_bounds _ hx
  have hnew : x ∉ g.known changed := hs.notMem_seen _ hx
  refine ⟨hs.walk (fun _ _ => id) (fun _ _ => trivial) (fun _ _ _ => trivial) e x hx,
    fun m hw => ?_⟩
  by_cases hm : m ≤ levels + 1
  · rcases hs.meets hknown hw hm with rfl | hdirect | ⟨e', he', hx'⟩
    · exact absurd (mem_known.mpr (.inl hp)) hnew
    · exact absurd (mem_known.mpr (.inr ⟨p, hp, hdirect⟩)) hnew
    · have := depth_unique hx hx'
      omega
  · simp only at hb
    omega

theorem mem_depths_iff_distance (hp : p ∈ changed) (hone : ∀ q ∈ changed, q = p) {e : Nat}
    {x : String} : (x, (e : Int)) ∈ (g.affected levels changed).depths ↔
      1 ≤ e ∧ e ≤ levels ∧ Distance (fun y z => y ∈ g.dependentsOf z) p (e + 1) x := by
  obtain ⟨hs, hknown⟩ := single_search g levels hp hone
  constructor
  · intro hx
    have hb := hs.depth_bounds _ hx
    simp only at hb
    exact ⟨by omega, by omega, distance_of_mem_depths hp hone hx⟩
  · rintro ⟨hpos, hle, hd⟩
    rcases hs.meets hknown hd.walk (by omega) with rfl | hdirect | ⟨e', he', hx'⟩
    · have := hd.least 0 .here
      omega
    · have := hd.least 1 (.first hdirect)
      omega
    · have hb := hs.depth_bounds _ hx'
      obtain ⟨k, rfl⟩ : ∃ k : Nat, e' = k := ⟨e'.toNat, by simp only at hb; omega⟩
      have := hd.unique (distance_of_mem_depths hp hone hx')
      obtain rfl : e = k := by omega
      exact hx'

end

theorem mem_indirectOf_single {g : ImportGraph} {levels : Nat} {p x : String} :
    x ∈ (g.affected levels [p]).indirectOf p ↔
      ∃ e : Nat, (x, (e : Int)) ∈ (g.affected levels [p]).depths := by
  have h := @mem_depths_affected g levels [p] x
  simp only [List.mem_singleton, exists_eq_left] at h
  rw [← h]
  constructor
  · intro hx
    obtain ⟨⟨x, e⟩, hm, rfl⟩ := List.mem_map.mp hx
    have hb := (metBy_spec g levels (g.known [p]) [p].eraseDups).2 _ hm
    refine ⟨e.toNat, ?_⟩
    rwa [Int.toNat_of_nonneg (Int.le_of_lt hb.2.1)]
  · rintro ⟨e, hm⟩
    exact List.mem_map.mpr ⟨_, hm, rfl⟩

theorem lookup_depths_single {g : ImportGraph} {levels d : Nat} {p x : String}
    (hx : x ∈ (g.affected levels [p]).indirectOf p)
    (hd : Distance (fun y z => y ∈ g.dependentsOf z) p d x) :
    (g.affected levels [p]).depths.lookup x = some ((d : Int) - 1) := by
  obtain ⟨e, he⟩ := mem_indirectOf_single.mp hx
  obtain rfl := hd.unique
    (distance_of_mem_depths (List.mem_singleton_self p) (fun _ => List.mem_singleton.mp) he)
  rw [lookup_depths_affected he]
  simp

theorem mem_indirectOf_iff_distance {g : ImportGraph} {levels : Nat} {p x : String} :
    x ∈ (g.affected levels [p]).indirectOf p ↔
      ∃ d, 2 ≤ d ∧ d ≤ levels + 1 ∧ Distance (fun y z => y ∈ g.dependentsOf z) p d x := by
  have hp : p ∈ [p] := List.mem_singleton_self p
  have hone : ∀ q ∈ [p], q = p := fun q => List.mem_singleton.mp
  rw [mem_indirectOf_single]
  constructor
  · rintro ⟨e, he⟩
    obtain ⟨hpos, hle, hd⟩ := (mem_depths_iff_distance hp hone).mp he
    exact ⟨e + 1, by omega, by omega, hd⟩
  · rintro ⟨d, hpos, hle, hd⟩
    obtain ⟨e, rfl⟩ : ∃ e, d = e + 1 := ⟨d - 1, by omega⟩
    exact ⟨e, (mem_depths_iff_distance hp hone).mpr ⟨by omega, by omega, hd⟩⟩

/-- The impact of one changed file lists the files at distance one as direct and those from two
to `levels + 1` as indirect, the nearer ones first. -/
theorem impactOf_single (calls : List Recording) (levels : Nat) (p : String) :
    ∃ r, (after calls).impactOf levels [p] = .ok r ∧
      (∀ x, x ∈ r.directOf p ↔ Distance (Recorded calls) p 1 x) ∧ (r.directOf p).Nodup ∧
      (∀ x, x ∈ r.indirectOf p ↔
        ∃ d, 2 ≤ d ∧ d ≤ levels + 1 ∧ Distance (Recorded calls) p d x) ∧
      (r.indirectOf p).Nodup ∧
      ((r.indirectOf p).Pairwise fun x y => ∀ d e, Distance (Recorded calls) p d x →
        Distance (Recorded calls) p e y → d ≤ e) ∧
      ∀ x ∈ r.indirectOf p, ∀ d, Distance (Recorded calls) p d x →
        r.depths.lookup x = some ((d : Int) - 1) := by
  rw [recorded_eq]
  have hp : p ∈ [p] := List.mem_singleton_self p
  have hself : p ∉ (after calls).dependentsOf p := fun h => (mem_dependentsOf_after.mp h).2.2 rfl
  obtain ⟨before, -, hlist, -⟩ := exists_search (after calls) levels hp
  refine ⟨_, impactOf_natCast _ levels [p], fun x => ?_, ?_, fun x => mem_indirectOf_iff_distance,
    ?_, ?_, fun x hx d hd => lookup_depths_single hx hd⟩
  · rw [directOf_affected hp, Distance.one_iff hself]
  · rw [directOf_affected hp]
    exact nodup_dependentsOf_after calls p
  · exact hlist ▸ (search_searched (after calls) levels 0 _ before).nodup
  · refine (pairwise_depthOf_affected hp).imp_of_mem fun {x y} hx hy hle d e hd he => ?_
    simp only [Impact.depthOf, lookup_depths_single hx hd, lookup_depths_single hy he,
      Option.getD_some] at hle
    omega

end ImportGraph

end ChangeImpact

/-!
## Searching one level deeper

One more level adds files and can lose some. The search of an earlier changed file may now meet
at its last level a file that was left to a later search before, and what lies behind that file
is opened by neither. `impactOf_deeper` says that a file is lost in no other way.
-/

namespace ChangeImpact.ImportGraph

open Impact

section

variable {g : ImportGraph} {levels : Nat} {changed : List String}

theorem parent_of_mem_depths {x : String} {e : Nat}
    (h : (x, ((e + 1 : Nat) : Int)) ∈ (g.affected levels changed).depths) :
    (∃ p ∈ changed, ∃ q ∈ g.dependentsOf p, x ∈ g.dependentsOf q) ∨
      ∃ q, (q, (e : Int)) ∈ (g.affected levels changed).depths ∧ x ∈ g.dependentsOf q := by
  obtain ⟨p, found, hmem, hx⟩ := mem_metBy.mp h
  obtain ⟨hp, before, rfl, _⟩ := searchAll_entry hmem
  have hs := search_searched g levels 0 (g.dependentsOf p) before
  rcases hs.parent_succ hx with ⟨-, q, hq, hxq⟩ | ⟨q, hq, hxq⟩
  · exact .inl ⟨p, List.mem_eraseDups.mp hp, q, hq, hxq⟩
  · exact .inr ⟨q, mem_metBy.mpr ⟨p, _, hmem, hq⟩, hxq⟩

/-- A file met before is met again or lies behind one that has moved to the last level: by
induction on its depth, where the file through which it was met was kept, was lost itself, or is
the one that has moved. -/
theorem kept_or_behind {e : Nat} {x : String}
    (hx : (x, (e : Int)) ∈ (g.affected levels changed).depths) :
    x ∈ (g.affected (levels + 1) changed).allAffected ∨
      ∃ z k n, 0 < n ∧ k + n = e ∧ (z, (k : Int)) ∈ (g.affected levels changed).depths ∧
        (z, ((levels + 1 : Nat) : Int)) ∈ (g.affected (levels + 1) changed).depths ∧
        Walk (fun y z => y ∈ g.dependentsOf z) (fun _ => True) z n x := by
  induction e generalizing x with
  | zero =>
    have hb := (metBy_spec g levels (g.known changed) changed.eraseDups).2 _ hx
    simp at hb
  | succ e ih =>
    rcases parent_of_mem_depths hx with ⟨p, hp, q, hq, hxq⟩ | ⟨q, hq, hxq⟩
    · exact .inl (opens_direct (Nat.succ_pos levels) hp hq hxq)
    rcases ih hq with hkept | ⟨z, k, n, hn, rfl, hzk, hz, hw⟩
    · rcases mem_allAffected.mp hkept with hknown | hmet
      · exact absurd hq (notMem_depths_of_known hknown _)
      obtain ⟨⟨q, d⟩, hd, rfl⟩ := List.mem_map.mp hmet
      have hb := (metBy_spec g (levels + 1) (g.known changed) changed.eraseDups).2 _ hd
      by_cases hlast : d = ((levels + 1 : Nat) : Int)
      · exact .inr ⟨q, e, 1, Nat.one_pos, rfl, hq, hlast ▸ hd, .first hxq⟩
      · refine .inl (opens_met hd ?_ hxq)
        simp only at hb
        omega
    · obtain ⟨m, rfl⟩ : ∃ m, n = m + 1 := ⟨n - 1, by omega⟩
      exact .inr ⟨z, k, m + 2, by omega, rfl, hzk, hz, .next hw trivial hxq⟩

theorem lost_behind {x : String} (hx : x ∈ (g.affected levels changed).allAffected)
    (hlost : x ∉ (g.affected (levels + 1) changed).allAffected) :
    ∃ z k n, 0 < n ∧ k + n ≤ levels ∧ (z, (k : Int)) ∈ (g.affected levels changed).depths ∧
      (z, ((levels + 1 : Nat) : Int)) ∈ (g.affected (levels + 1) changed).depths ∧
      Walk (fun y z => y ∈ g.dependentsOf z) (fun _ => True) z n x ∧
      (x, ((k + n : Nat) : Int)) ∈ (g.affected levels changed).depths := by
  rcases mem_allAffected.mp hx with hknown | hmet
  · exact absurd (mem_allAffected.mpr (.inl hknown)) hlost
  obtain ⟨⟨x, d⟩, hd, rfl⟩ := List.mem_map.mp hmet
  have hb := (metBy_spec g levels (g.known changed) changed.eraseDups).2 _ hd
  obtain ⟨e, rfl⟩ : ∃ e : Nat, d = e := ⟨d.toNat, by simp only at hb; omega⟩
  simp only at hb
  rcases kept_or_behind hd with hkept | ⟨z, k, n, hn, rfl, hzk, hz, hw⟩
  · exact absurd hkept hlost
  · exact ⟨z, k, n, hn, by omega, hzk, hz, hw, hd⟩

end

/-- A file that is affected up to `levels` levels and no more up to one level more lies behind a
file that has moved to the last level. No file moves so where there are not two levels or not two
changed files. -/
theorem impactOf_deeper (calls : List Recording) (levels : Nat) (changed : List String) :
    ∃ r s, (after calls).impactOf levels changed = .ok r ∧
      (after calls).impactOf ((levels + 1 : Nat) : Int) changed = .ok s ∧
      (∀ x ∈ r.allAffected, x ∉ s.allAffected ↔ ∀ p ∈ changed, ∀ n ≤ levels + 2,
        ¬Walk (Recorded calls) (fun z => (z, ((levels + 1 : Nat) : Int)) ∉ s.depths) p n x) ∧
      (∀ x ∈ r.allAffected, x ∉ s.allAffected → ∃ z k n, 0 < n ∧ k + n ≤ levels ∧
        (z, (k : Int)) ∈ r.depths ∧ (z, ((levels + 1 : Nat) : Int)) ∈ s.depths ∧
        Walk (Recorded calls) (fun _ => True) z n x ∧ (x, ((k + n : Nat) : Int)) ∈ r.depths) ∧
      ((levels ≤ 1 ∨ ∃ p, ∀ q ∈ changed, q = p) → r.allAffected ⊆ s.allAffected) := by
  rw [recorded_eq]
  refine ⟨_, _, impactOf_natCast _ levels changed, impactOf_natCast _ (levels + 1) changed,
    fun x _ => ?_, fun x hx hlost => lost_behind hx hlost, fun hfew x hx => ?_⟩
  · rw [mem_allAffected_iff_walk]
    push Not
    rfl
  · by_contra hlost
    obtain ⟨z, k, n, hn, hle, hzk, hz, -, -⟩ := lost_behind hx hlost
    have hb := (metBy_spec (after calls) levels ((after calls).known changed)
      changed.eraseDups).2 _ hzk
    rcases hfew with hl | ⟨p, hone⟩
    · simp only at hb
      omega
    -- The depth of a file is its distance in both searches, which is one number.
    · obtain ⟨q, hq, -⟩ := mem_depths_affected.mp (List.mem_map_of_mem hzk)
      obtain rfl := hone q hq
      have := (distance_of_mem_depths hq hone hzk).unique (distance_of_mem_depths hq hone hz)
      omega

def receding : List Recording :=
  [.batch [("parser.ts", some "lexer.ts"), ("checker.ts", some "parser.ts"),
    ("compiler.ts", some "checker.ts"), ("cli.ts", some "compiler.ts"),
    ("printer.ts", some "doc.ts"), ("cli.ts", some "printer.ts"), ("main.ts", some "cli.ts")]]

theorem receding_loses_main :
    ∃ r s, (after receding).impactOf 2 ["lexer.ts", "doc.ts"] = .ok r ∧
      (after receding).impactOf 3 ["lexer.ts", "doc.ts"] = .ok s ∧
      "main.ts" ∈ r.allAffected ∧ "main.ts" ∉ s.allAffected :=
  ⟨_, _, rfl, rfl, by decide, by decide⟩

end ChangeImpact.ImportGraph
