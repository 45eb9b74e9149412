import ChangeImpact.Proofs.Graph.Affected
import Mathlib.Data.Finset.Card
import Mathlib.Data.List.Pairwise

/-!
# The lists of an impact

What an impact lists as indirect, file by file: each file lies at the end of a route from the
changed file under which it is listed, as long as its depth says; none is listed twice, and none
is changed or direct. `sound_impactOf` says so for every graph and every list of changed files,
and that all the affected files together are the changed ones, the direct ones and the indirect
ones, each once.
-/

namespace ChangeImpact

/-- The files passed on the way from `start` to a file, the last one first. Each imports the one
before it, and none is passed twice. -/
inductive Route (imports : String → String → Prop) (start : String) : String → List String → Prop
  | here : Route imports start start []
  | next {x y : String} {passed : List String} :
      Route imports start x passed → imports y x → y ∉ start :: passed →
        Route imports start y (y :: passed)

/-- What an impact up to `levels` indirect levels lists, held against the imports. -/
structure Impact.Sound (imports : String → String → Prop) (levels : Nat) (r : Impact) :
    Prop where
  keys_direct : r.direct.map (·.1) = r.changed
  keys_indirect : r.indirect.map (·.1) = r.changed
  mem_directOf : ∀ p ∈ r.changed, ∀ q, q ∈ r.directOf p ↔ imports q p
  route : ∀ p ∈ r.changed, ∀ f ∈ r.indirectOf p, ∃ d : Nat, r.depths.lookup f = some (d : Int) ∧
    1 ≤ d ∧ d ≤ levels ∧ ∃ passed, Route imports p f passed ∧ passed.length = d + 1
  nodup_indirectOf : ∀ p ∈ r.changed, (r.indirectOf p).Nodup
  disjoint_indirectOf : ∀ p ∈ r.changed, ∀ q ∈ r.changed, p ≠ q →
    (r.indirectOf p).Disjoint (r.indirectOf q)
  notMem_changed : ∀ p ∈ r.changed, ∀ f ∈ r.indirectOf p, f ∉ r.changed
  notMem_directOf : ∀ p ∈ r.changed, ∀ f ∈ r.indirectOf p, ∀ q ∈ r.changed, f ∉ r.directOf q
  pairwise_depthOf : ∀ p ∈ r.changed,
    (r.indirectOf p).Pairwise fun f h => r.depthOf f ≤ r.depthOf h
  nodup_depths : (r.depths.map (·.1)).Nodup
  mem_depths : ∀ f, f ∈ r.depths.map (·.1) ↔ ∃ p ∈ r.changed, f ∈ r.indirectOf p
  nodup_allAffected : r.allAffected.Nodup
  begins_changed : r.changed <+: r.allAffected
  length_allAffected : r.allAffected.length = r.changed.length +
    ((r.direct.flatMap (·.2)).toFinset \ r.changed.toFinset).card + r.totalIndirect

namespace Impact

variable {g : ImportGraph} {levels : Nat}

theorem pairwise_search (g : ImportGraph) (levels depth : Nat) (frontier seen : List String) :
    (search g levels depth frontier seen).1.Pairwise fun m m' => m.2 ≤ m'.2 := by
  induction levels generalizing depth frontier seen with
  | zero => exact .nil
  | succ n ih =>
    cases frontier with
    | nil => exact .nil
    | cons q r =>
      simp only [search]
      refine List.pairwise_append.mpr
        ⟨List.pairwise_map.mpr (List.pairwise_of_forall fun _ _ => le_rfl), ih _ _ _, ?_⟩
      intro m hm m' hm'
      obtain ⟨x, -, rfl⟩ := List.mem_map.mp hm
      have hb := (search_searched g n (depth + 1) _ _).depth_bounds m' hm'
      push_cast at hb ⊢
      omega

theorem keys_searchAll (g : ImportGraph) (levels : Nat) (seen changed : List String) :
    (searchAll g levels seen changed).map (·.1) = changed := by
  induction changed generalizing seen with
  | nil => rfl
  | cons p r ih => simp only [searchAll, List.map_cons, ih]

section Routes

variable {p q x : String} {before seen' : List String} {found : List (String × Int)}
  {imports : String → String → Prop}

theorem route_pair (hq : imports q p) (hx : imports x q) (hqp : q ≠ p) (hxp : x ≠ p)
    (hxq : x ≠ q) : Route imports p x [x, q] :=
  .next (.next .here hq (List.mem_singleton.not.mpr hqp)) hx
    (List.not_mem_cons_of_ne_of_not_mem hxp (List.mem_singleton.not.mpr hxq))

theorem Searched.depth_unique {frontier : List String} {depth : Nat} {e e' : Int}
    (h : Searched g levels depth frontier before found seen') (hx : (x, e) ∈ found)
    (hx' : (x, e') ∈ found) : e = e' :=
  congrArg Prod.snd (List.inj_on_of_nodup_map h.nodup hx hx' rfl)

/-- The start and its dependents are seen before the search, so a file that is met comes new to
the route that leads to it. -/
theorem Searched.route (h : Searched g levels 0 (g.dependentsOf p) before found seen')
    (himports : ∀ x y, y ∈ g.dependentsOf x → imports y x) (hp : p ∈ before)
    (hdirect : g.dependentsOf p ⊆ before) (hself : p ∉ g.dependentsOf p) :
    ∀ (e : Nat) (x : String), (x, (e : Int)) ∈ found →
      ∃ passed, Route imports p x passed ∧ passed.length = e + 1 ∧
        ∀ z ∈ passed, z ∈ before ∨ ∃ k : Nat, k ≤ e ∧ (z, (k : Int)) ∈ found := by
  intro e
  -- The induction is on the depth: the file through which another is met lies one level above.
  induction e with
  | zero =>
    intro x hx
    exact absurd (h.depth_bounds _ hx).1 (by simp)
  | succ e ih =>
    intro x hx
    have hxnew : ∀ {y}, y ∈ before → x ≠ y := fun hy heq =>
      h.notMem_seen _ hx (heq ▸ hy)
    rcases h.parent_succ hx with ⟨rfl, q, hq, hxq⟩ | ⟨q, hq, hxq⟩
    · have hroute := route_pair (himports _ _ hq) (himports _ _ hxq)
        (fun heq => hself (heq ▸ hq)) (hxnew hp) (hxnew (hdirect hq))
      refine ⟨[x, q], hroute, rfl, ?_⟩
      intro z hz
      rcases List.mem_pair.mp hz with rfl | rfl
      · exact .inr ⟨1, le_rfl, hx⟩
      · exact .inl (hdirect hq)
    · obtain ⟨passed, hroute, hlen, hpassed⟩ := ih q hq
      have hxpassed : x ∉ passed := by
        intro hmem
        rcases hpassed x hmem with hbefore | ⟨k, hk, hxk⟩
        · exact hxnew hbefore rfl
        · have hsame := h.depth_unique hx hxk
          omega
      refine ⟨x :: passed, .next hroute (himports _ _ hxq)
        (List.not_mem_cons_of_ne_of_not_mem (hxnew hp) hxpassed), by rw [List.length_cons, hlen],
        ?_⟩
      intro z hz
      rcases List.mem_cons.mp hz with rfl | hz
      · exact .inr ⟨e + 1, le_rfl, hx⟩
      · exact (hpassed z hz).imp id fun ⟨k, hk, hzk⟩ => ⟨k, by omega, hzk⟩

end Routes

end Impact

namespace ImportGraph

open Impact

variable {g : ImportGraph} {levels : Nat} {changed : List String}

theorem directOf_affected {p : String} (hp : p ∈ changed) :
    (g.affected levels changed).directOf p = g.dependentsOf p := by
  have hmem : (p, g.dependentsOf p) ∈ (g.affected levels changed).direct :=
    List.mem_map.mpr ⟨p, List.mem_eraseDups.mpr hp, rfl⟩
  have hkeys : (g.affected levels changed).direct.map (·.1) = changed.eraseDups := by
    simp [affected, Function.comp_def]
  rw [Impact.directOf, lookup_of_mem (hkeys ▸ nodup_eraseDups changed) hmem, Option.getD_some]

theorem keys_indirect_affected :
    (g.affected levels changed).indirect.map (·.1) = changed.eraseDups := by
  rw [← keys_searchAll g levels (g.known changed) changed.eraseDups]
  exact List.map_map

theorem indirectOf_affected {p : String} {found : List (String × Int)}
    (h : (p, found) ∈ searchAll g levels (g.known changed) changed.eraseDups) :
    (g.affected levels changed).indirectOf p = found.map (·.1) := by
  have hmem : (p, found.map (·.1)) ∈ (g.affected levels changed).indirect :=
    List.mem_map.mpr ⟨_, h, rfl⟩
  rw [Impact.indirectOf,
    lookup_of_mem (keys_indirect_affected ▸ nodup_eraseDups changed) hmem, Option.getD_some]

/-- The indirect list of a changed file comes from a search that takes all known files for seen. -/
theorem exists_search (g : ImportGraph) (levels : Nat) {p : String} (hp : p ∈ changed) :
    ∃ before, g.known changed ⊆ before ∧
      (g.affected levels changed).indirectOf p =
        (search g levels 0 (g.dependentsOf p) before).1.map (·.1) ∧
      (search g levels 0 (g.dependentsOf p) before).1 ⊆ (g.affected levels changed).depths := by
  obtain ⟨found, h⟩ : ∃ found, (p, found) ∈ searchAll g levels (g.known changed)
      changed.eraseDups := exists_entry (List.mem_eraseDups.mpr hp)
  obtain ⟨-, before, rfl, hsub, -⟩ := searchAll_entry h
  exact ⟨before, hsub, indirectOf_affected h, fun m hm => mem_metBy.mpr ⟨p, _, h, hm⟩⟩

theorem nodup_depths_affected : ((g.affected levels changed).depths.map (·.1)).Nodup :=
  (metBy_spec g levels (g.known changed) changed.eraseDups).1

theorem lookup_depths_affected {x : String} {e : Int}
    (h : (x, e) ∈ (g.affected levels changed).depths) :
    (g.affected levels changed).depths.lookup x = some e :=
  lookup_of_mem nodup_depths_affected h

theorem flatMap_indirect_affected :
    (g.affected levels changed).indirect.flatMap (·.2) =
      (g.affected levels changed).depths.map (·.1) := by
  rw [depths_affected, metBy, List.map_flatMap]
  exact List.flatMap_map ..

theorem mem_depths_affected {f : String} :
    f ∈ (g.affected levels changed).depths.map (·.1) ↔
      ∃ p ∈ changed, f ∈ (g.affected levels changed).indirectOf p := by
  constructor
  · intro h
    obtain ⟨m, hm, rfl⟩ := List.mem_map.mp h
    obtain ⟨p, found, hmem, hmf⟩ := mem_metBy.mp hm
    have hp : p ∈ changed.eraseDups := (searchAll_entry hmem).1
    refine ⟨p, List.mem_eraseDups.mp hp, ?_⟩
    rw [indirectOf_affected hmem]
    exact List.mem_map_of_mem hmf
  · rintro ⟨p, hp, hf⟩
    obtain ⟨before, -, hlist, hsub⟩ := exists_search g levels hp
    rw [hlist] at hf
    exact List.map_subset _ hsub hf

theorem nodup_flatMap_indirect : ((g.affected levels changed).indirect.flatMap (·.2)).Nodup :=
  flatMap_indirect_affected ▸ nodup_depths_affected

theorem disjoint_indirectOf_affected {p q : String} (hp : p ∈ changed) (hq : q ∈ changed)
    (hne : p ≠ q) : ((g.affected levels changed).indirectOf p).Disjoint
      ((g.affected levels changed).indirectOf q) := by
  obtain ⟨found, h⟩ : ∃ found, (p, found) ∈ searchAll g levels (g.known changed)
      changed.eraseDups := exists_entry (List.mem_eraseDups.mpr hp)
  obtain ⟨found', h'⟩ : ∃ found, (q, found) ∈ searchAll g levels (g.known changed)
      changed.eraseDups := exists_entry (List.mem_eraseDups.mpr hq)
  rw [indirectOf_affected h, indirectOf_affected h']
  have hpair := (List.nodup_flatMap.mp (@nodup_flatMap_indirect g levels changed)).2
  have hmem : (p, found.map (·.1)) ∈ (g.affected levels changed).indirect :=
    List.mem_map.mpr ⟨_, h, rfl⟩
  have hmem' : (q, found'.map (·.1)) ∈ (g.affected levels changed).indirect :=
    List.mem_map.mpr ⟨_, h', rfl⟩
  have hsymm : Std.Symm (Function.onFun List.Disjoint
      fun e : String × List String => e.2) := ⟨fun _ _ hd => hd.symm⟩
  exact hpair.forall hmem hmem' fun heq => hne (congrArg Prod.fst heq)

theorem notMem_known_of_mem_indirectOf {p f : String} (hp : p ∈ changed)
    (hf : f ∈ (g.affected levels changed).indirectOf p) : f ∉ g.known changed := by
  obtain ⟨before, hknown, hlist, -⟩ := exists_search g levels hp
  rw [hlist] at hf
  obtain ⟨m, hm, rfl⟩ := List.mem_map.mp hf
  exact fun hk => (search_searched g levels 0 _ before).notMem_seen m hm (hknown hk)

theorem pairwise_depthOf_affected {p : String} (hp : p ∈ changed) :
    ((g.affected levels changed).indirectOf p).Pairwise fun f h =>
      (g.affected levels changed).depthOf f ≤ (g.affected levels changed).depthOf h := by
  obtain ⟨before, -, hlist, hsub⟩ := exists_search g levels hp
  rw [hlist, List.pairwise_map]
  refine (pairwise_search g levels 0 _ before).imp_of_mem fun {m m'} hm hm' hle => ?_
  simpa only [Impact.depthOf, lookup_depths_affected (x := m.1) (hsub hm),
    lookup_depths_affected (x := m'.1) (hsub hm'), Option.getD_some] using hle

theorem allAffected_eq :
    (g.affected levels changed).allAffected = changed.eraseDups ++
      (((g.affected levels changed).direct.flatMap (·.2)).removeAll changed.eraseDups).eraseDups ++
      (g.affected levels changed).indirect.flatMap (·.2) := by
  have hnew : ((g.affected levels changed).indirect.flatMap (·.2)).removeAll (g.known changed) =
      (g.affected levels changed).indirect.flatMap (·.2) := by
    refine List.filter_eq_self.mpr fun f hf => ?_
    rw [flatMap_indirect_affected] at hf
    obtain ⟨p, hp, hfp⟩ := mem_depths_affected.mp hf
    simpa [List.elem_eq_contains] using notMem_known_of_mem_indirectOf hp hfp
  have hall : (g.affected levels changed).allAffected =
      (g.known changed ++ (g.affected levels changed).indirect.flatMap (·.2)).eraseDups := rfl
  have hknown : g.known changed =
      changed.eraseDups ++ (g.affected levels changed).direct.flatMap (·.2) := rfl
  rw [hall, List.eraseDups_append, hnew, eraseDups_of_nodup nodup_flatMap_indirect, hknown,
    List.eraseDups_append, eraseDups_of_nodup (nodup_eraseDups changed)]

theorem length_allAffected_affected :
    (g.affected levels changed).allAffected.length = changed.eraseDups.length +
      (((g.affected levels changed).direct.flatMap (·.2)).toFinset \
        changed.eraseDups.toFinset).card + (g.affected levels changed).totalIndirect := by
  have hdirect : ((g.affected levels changed).direct.flatMap (·.2)).toFinset \
      changed.eraseDups.toFinset = (((g.affected levels changed).direct.flatMap (·.2)).removeAll
        changed.eraseDups).eraseDups.toFinset := by
    ext f
    simp [List.removeAll, List.elem_eq_contains]
  rw [hdirect, List.toFinset_card_of_nodup (nodup_eraseDups _), Impact.totalIndirect,
    eraseDups_of_nodup nodup_flatMap_indirect, allAffected_eq, List.length_append,
    List.length_append]

theorem begins_changed_affected :
    changed.eraseDups <+: (g.affected levels changed).allAffected := by
  rw [allAffected_eq, List.append_assoc]
  exact List.prefix_append ..

theorem route_affected {imports : String → String → Prop}
    (himports : ∀ x y, y ∈ g.dependentsOf x → imports y x)
    (hself : ∀ x, x ∉ g.dependentsOf x) {p f : String} (hp : p ∈ changed)
    (hf : f ∈ (g.affected levels changed).indirectOf p) :
    ∃ d : Nat, (g.affected levels changed).depths.lookup f = some (d : Int) ∧ 1 ≤ d ∧
      d ≤ levels ∧ ∃ passed, Route imports p f passed ∧ passed.length = d + 1 := by
  obtain ⟨before, hknown, hlist, hsub⟩ := exists_search g levels hp
  have hs := search_searched g levels 0 (g.dependentsOf p) before
  rw [hlist] at hf
  obtain ⟨⟨f, e⟩, hm, rfl⟩ := List.mem_map.mp hf
  have hb := hs.depth_bounds _ hm
  obtain ⟨d, rfl⟩ : ∃ d : Nat, e = d := ⟨e.toNat, by simp only at hb; omega⟩
  obtain ⟨passed, hroute, hlen, -⟩ := hs.route himports
    (hknown (mem_known.mpr (.inl hp)))
    (fun q hq => hknown (mem_known.mpr (.inr ⟨p, hp, hq⟩))) (hself p) d f hm
  simp only at hb
  exact ⟨d, lookup_depths_affected (hsub hm), by omega, by omega, passed, hroute, hlen⟩

/-- For every depth that is not negative the lists of the impact are sound. -/
theorem sound_impactOf (calls : List Recording) (levels : Nat) (changed : List String) :
    ∃ r, (after calls).impactOf levels changed = .ok r ∧ r.changed = changed.eraseDups ∧
      r.Sound (Recorded calls) levels := by
  have hself : ∀ x, x ∉ (after calls).dependentsOf x := fun x hx =>
    (mem_dependentsOf_after.mp hx).2.2 rfl
  have hmem : ∀ p, p ∈ ((after calls).affected levels changed).changed ↔ p ∈ changed :=
    fun p => List.mem_eraseDups
  refine ⟨_, impactOf_natCast _ levels changed, rfl, ?_⟩
  exact
    { keys_direct := by simp [affected, Function.comp_def]
      keys_indirect := keys_indirect_affected
      mem_directOf := fun p hp q => by
        rw [directOf_affected ((hmem p).mp hp), mem_dependentsOf_after]
      route := fun p hp f hf =>
        route_affected (fun _ _ => mem_dependentsOf_after.mp) hself ((hmem p).mp hp) hf
      nodup_indirectOf := fun p hp => by
        obtain ⟨before, -, hlist, -⟩ := exists_search (after calls) levels ((hmem p).mp hp)
        exact hlist ▸ (search_searched (after calls) levels 0 _ before).nodup
      disjoint_indirectOf := fun p hp q hq hne =>
        disjoint_indirectOf_affected ((hmem p).mp hp) ((hmem q).mp hq) hne
      notMem_changed := fun p hp f hf hc =>
        notMem_known_of_mem_indirectOf ((hmem p).mp hp) hf (mem_known.mpr (.inl ((hmem f).mp hc)))
      notMem_directOf := fun p hp f hf q hq hd => by
        rw [directOf_affected ((hmem q).mp hq)] at hd
        exact notMem_known_of_mem_indirectOf ((hmem p).mp hp) hf
          (mem_known.mpr (.inr ⟨q, (hmem q).mp hq, hd⟩))
      pairwise_depthOf := fun p hp => pairwise_depthOf_affected ((hmem p).mp hp)
      nodup_depths := nodup_depths_affected
      mem_depths := fun f => by simp only [hmem]; exact mem_depths_affected
      nodup_allAffected := nodup_eraseDups _
      begins_changed := begins_changed_affected
      length_allAffected := length_allAffected_affected }

end ImportGraph

end ChangeImpact
