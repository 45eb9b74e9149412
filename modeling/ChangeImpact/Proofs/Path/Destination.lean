import ChangeImpact.Path.Loose
import ChangeImpact.Proofs.Path.Parts
import ChangeImpact.Proofs.Text.Loose

/-!
# Paths that a user gives

A path is walked step by step, from the top of the repository or from the root that it names
itself. It is taken just where the walk ends at that top or below it. What is given back for it is
then the one written form of the place where the walk ends, so that two paths have the same form
just where they lead to the same place.
-/

namespace ChangeImpact.Path

def stepsOf (s : LooseText) : List LooseText :=
  (Text.splitWhere (· == .char '/') s.points).map LooseText.mk

def goStep (place : List LooseText) (step : LooseText) : List LooseText :=
  if step = "" ∨ step = "." then place
  else if step = ".." then place.dropLast
  else place ++ [step]

@[ext]
structure Destination where
  anchor : Anchor
  names : List LooseText
  deriving DecidableEq

def destination (root : Path) (value : LooseText) : Destination :=
  if anchorOf value.visible.toList = .relative then
    ⟨root.anchor, (stepsOf value).foldl goStep (root.parts.map LooseText.ofString)⟩
  else ⟨anchorOf value.visible.toList, (stepsOf value).foldl goStep []⟩

def Destination.IsBelow (d : Destination) (root : Path) : Prop :=
  d.anchor = root.anchor ∧ root.parts.map LooseText.ofString <+: d.names

instance (d : Destination) (root : Path) : Decidable (d.IsBelow root) :=
  inferInstanceAs (Decidable (_ ∧ _))

structure IsTop (root : Path) : Prop where
  absolute : root.isAbsolute = true
  isPart : ∀ p ∈ root.parts, IsPart p
  noMark : ".." ∉ root.parts

def IsLooseName (p : LooseText) : Prop :=
  p ≠ "" ∧ p ≠ "." ∧ p ≠ ".." ∧ .char '/' ∉ p.points

section Resolve

variable {α β : Type} [BEq α] [LawfulBEq α] [BEq β] [LawfulBEq β]

theorem map_resolveParts {f : α → β} (hf : Function.Injective f) (up : α) (absolute : Bool)
    (done parts : List α) : (resolveParts up absolute done parts).map f =
      resolveParts (f up) absolute (done.map f) (parts.map f) := by
  induction parts generalizing done with
  | nil => rw [resolveParts, List.map_nil, resolveParts, List.map_reverse]
  | cons c r ih =>
    have hsame : (f c != f up || (!absolute && (done.map f).isEmpty) ||
        (done.map f).head? == some (f up)) =
          (c != up || (!absolute && done.isEmpty) || done.head? == some up) := by
      cases done with
      | nil => simp [bne, hf.beq_eq]
      | cons d ds => simp [bne, hf.beq_eq]
    rw [resolveParts, List.map_cons, resolveParts, hsame]
    split
    · rw [ih, List.map_cons]
    · rw [ih, List.map_tail]

theorem resolveParts_of_notMem {up : α} {parts : List α} (h : up ∉ parts) (absolute : Bool)
    (done : List α) : resolveParts up absolute done parts = done.reverse ++ parts := by
  induction parts generalizing done with
  | nil => rw [resolveParts, List.append_nil]
  | cons c r ih =>
    rw [List.mem_cons, not_or] at h
    have hkeep : (c != up || (!absolute && done.isEmpty) || done.head? == some up) = true := by
      simp [Ne.symm h.1]
    rw [resolveParts, if_pos hkeep, ih h.2, List.reverse_cons, List.append_assoc,
      List.singleton_append]

end Resolve

section Walk

variable {parts place : List LooseText}

theorem goStep_name {p : LooseText} (h : IsLooseName p) : goStep place p = place ++ [p] := by
  rw [goStep, if_neg (not_or.mpr ⟨h.1, h.2.1⟩), if_neg h.2.2.1]

theorem foldl_goStep_names (h : ∀ p ∈ parts, IsLooseName p) :
    parts.foldl goStep place = place ++ parts := by
  induction parts generalizing place with
  | nil => rw [List.foldl_nil, List.append_nil]
  | cons p r ih =>
    obtain ⟨hp, hr⟩ := List.forall_mem_cons.mp h
    rw [List.foldl_cons, goStep_name hp, ih hr, List.append_assoc, List.singleton_append]

/-- Steps that stay where they are can be left out. -/
theorem foldl_goStep_looseParts (s : LooseText) :
    (looseParts s).foldl goStep place = (stepsOf s).foldl goStep place := by
  rw [looseParts, List.foldl_filter]
  apply List.foldl_ext
  intro place p _
  split
  · rfl
  next h =>
    rw [goStep, if_pos]
    simpa [or_iff_not_imp_left] using h

/-- Below a root no mark is ever kept, so each one takes the name before it away. -/
theorem resolveParts_rooted {done : List LooseText} (hdone : (".." : LooseText) ∉ done)
    (hparts : ∀ p ∈ parts, p ≠ "" ∧ p ≠ ".") :
    resolveParts (".." : LooseText) true done parts = parts.foldl goStep done.reverse := by
  induction parts generalizing done with
  | nil => rfl
  | cons p r ih =>
    obtain ⟨hp, hr⟩ := List.forall_mem_cons.mp hparts
    rw [resolveParts, List.foldl_cons, goStep, if_neg (not_or.mpr hp)]
    by_cases hup : p = ".."
    · have hdrop : (p != (".." : LooseText) || (!true && done.isEmpty) ||
          done.head? == some (".." : LooseText)) = false := by
        have hhead : done.head? ≠ some (".." : LooseText) := fun h => hdone (List.mem_of_head? h)
        simp [hup, hhead]
      rw [hdrop, if_neg Bool.false_ne_true, if_pos hup, List.dropLast_reverse]
      apply ih _ hr
      exact fun h => hdone (List.mem_of_mem_tail h)
    · have hkeep : (p != (".." : LooseText) || (!true && done.isEmpty) ||
          done.head? == some (".." : LooseText)) = true := by
        simp [hup]
      rw [if_pos hkeep, if_neg hup, ← List.reverse_cons]
      apply ih _ hr
      rw [List.mem_cons, not_or]
      exact ⟨Ne.symm hup, hdone⟩

theorem isLooseName_of_mem_foldl {steps : List LooseText} (hplace : ∀ p ∈ place, IsLooseName p)
    (hsteps : ∀ p ∈ steps, .char '/' ∉ p.points) :
    ∀ p ∈ steps.foldl goStep place, IsLooseName p := by
  induction steps generalizing place with
  | nil => exact hplace
  | cons s r ih =>
    obtain ⟨hs, hr⟩ := List.forall_mem_cons.mp hsteps
    rw [List.foldl_cons]
    apply ih _ hr
    rw [goStep]
    split
    · exact hplace
    next hstay =>
      split
      · exact fun p hp => hplace p (List.dropLast_subset place hp)
      next hup =>
        intro p hp
        rcases List.mem_append.mp hp with hp | hp
        · exact hplace p hp
        · obtain rfl := List.mem_singleton.mp hp
          rw [not_or] at hstay
          exact ⟨hstay.1, hstay.2, hup, hs⟩

end Walk

section Written

theorem looseParts_ofString (s : String) :
    looseParts (.ofString s) = (ofString s).parts.map LooseText.ofString := by
  have hsteps : (Text.splitWhere (· == .char '/') (LooseText.ofString s).points).map LooseText.mk =
      (Text.fields '/' s).map LooseText.ofString := by
    rw [LooseText.ofString, LooseText.ofChars, Text.splitWhere_map, Text.fields, List.map_map,
      List.map_map]
    apply congrArg₂ List.map
    · funext f
      simp [LooseText.ofString, LooseText.ofChars]
    · apply congrArg (Text.splitWhere · s.toList)
      funext c
      exact Function.Injective.beq_eq fun _ _ => CodePoint.char.inj
  rw [looseParts, hsteps, ofString, List.filter_map]
  apply congrArg (List.map _)
  apply List.filter_congr
  intro p _
  simp only [Function.comp_apply, bne, LooseText.ofString_injective.beq_eq]

theorem ofString_ofParts_eq (parts : List String) :
    LooseText.ofString (ofParts parts) = ofLooseParts (parts.map LooseText.ofString) := by
  cases parts with
  | nil => rfl
  | cons p r =>
    rw [LooseText.ofString, toList_ofParts (List.cons_ne_nil p r), LooseText.ofChars,
      Text.map_intercalate, List.map_map]
    simp only [ofLooseParts, LooseText.intercalate, List.map_map]
    rfl

variable {names : List LooseText}

theorem stepsOf_ofLooseParts (hne : names ≠ []) (h : ∀ p ∈ names, IsLooseName p) :
    stepsOf (ofLooseParts names) = names := by
  have hempty : names.isEmpty = false := by
    rwa [List.isEmpty_eq_false_iff]
  have hpoints : (ofLooseParts names).points =
      [.char '/'].intercalate (names.map LooseText.points) := by
    rw [ofLooseParts, hempty]
    rfl
  rw [stepsOf, hpoints, Text.splitWhere_eq_splitOnP]
  have hslash : ∀ f ∈ names.map LooseText.points, CodePoint.char '/' ∉ f := by
    intro f hf
    obtain ⟨p, hp, rfl⟩ := List.mem_map.mp hf
    exact (h p hp).2.2.2
  have hsplit := List.splitOn_intercalate _ hslash (List.map_eq_nil_iff.not.mpr hne)
  rw [List.splitOn] at hsplit
  rw [hsplit, List.map_map]
  exact List.map_id names

theorem anchorOf_ofLooseParts (h : ∀ p ∈ names, IsLooseName p) :
    anchorOf (ofLooseParts names).visible.toList = .relative := by
  apply anchorOf_of_head
  cases names with
  | nil => decide
  | cons p r =>
    obtain ⟨hne, -, -, hslash⟩ := h p List.mem_cons_self
    have hpoints : ∃ q rest, p.points = q :: rest := by
      cases hp : p.points with
      | nil => exact absurd (congrArg LooseText.mk hp) hne
      | cons q rest => exact ⟨q, rest, rfl⟩
    obtain ⟨q, rest, hq⟩ := hpoints
    have hfirst : ((ofLooseParts (p :: r)).visible.toList).head? = some q.visible := by
      cases r <;> simp [ofLooseParts, LooseText.intercalate, LooseText.visible, hq]
    rw [hfirst]
    intro heq
    apply hslash
    rw [hq, ← CodePoint.eq_char_of_visible (by decide) (Option.some.inj heq)]
    exact List.mem_cons_self

end Written

section Destination

variable {root : Path} {value : LooseText}

theorem normalise_of_isTop (h : IsTop root) : root.normalise = root := by
  rw [normalise, resolveParts_of_notMem h.noMark]
  rfl

theorem isLooseName_ofString {p : String} (hp : IsPart p) (hup : p ≠ "..") :
    IsLooseName (.ofString p) := by
  obtain ⟨hne, hdot, hslash⟩ := hp
  refine ⟨LooseText.ofString_inj.not.mpr hne, LooseText.ofString_inj.not.mpr hdot,
    LooseText.ofString_inj.not.mpr hup, ?_⟩
  simpa [LooseText.ofString, LooseText.ofChars] using hslash

theorem IsTop.isLooseName (h : IsTop root) :
    ∀ p ∈ root.parts.map LooseText.ofString, IsLooseName p := by
  intro p hp
  obtain ⟨q, hq, rfl⟩ := List.mem_map.mp hp
  exact isLooseName_ofString (h.isPart q hq) fun hup => h.noMark (hup ▸ hq)

theorem isLooseName_destination (h : IsTop root) (value : LooseText) :
    ∀ p ∈ (destination root value).names, IsLooseName p := by
  have hsteps : ∀ p ∈ stepsOf value, .char '/' ∉ p.points := by
    intro p hp hslash
    obtain ⟨f, hf, rfl⟩ := List.mem_map.mp hp
    simpa using Text.of_mem_splitWhere hf _ hslash
  rw [destination]
  split
  · exact isLooseName_of_mem_foldl h.isLooseName hsteps
  · exact isLooseName_of_mem_foldl (List.forall_mem_nil _) hsteps

theorem isKept_of_mem_looseParts {p : LooseText} (h : p ∈ looseParts value) :
    p ≠ "" ∧ p ≠ "." := by
  rw [looseParts, List.mem_filter, Bool.and_eq_true, bne_iff_ne, bne_iff_ne] at h
  exact h.2

theorem names_destination (h : IsTop root) (value : LooseText) :
    (destination root value).names = resolveParts (".." : LooseText) true []
      ((if anchorOf value.visible.toList = .relative then root.parts.map LooseText.ofString
        else []) ++ looseParts value) := by
  have hvalue : ∀ p ∈ looseParts value, p ≠ "" ∧ p ≠ "." := fun p hp =>
    isKept_of_mem_looseParts hp
  rw [destination]
  split
  · have hparts : ∀ p ∈ root.parts.map LooseText.ofString ++ looseParts value,
        p ≠ "" ∧ p ≠ "." := by
      rw [List.forall_mem_append]
      exact ⟨fun p hp => ⟨(h.isLooseName p hp).1, (h.isLooseName p hp).2.1⟩, hvalue⟩
    rw [resolveParts_rooted List.not_mem_nil hparts, List.foldl_append,
      foldl_goStep_names h.isLooseName, foldl_goStep_looseParts]
    rfl
  · rw [List.nil_append, resolveParts_rooted List.not_mem_nil hvalue, foldl_goStep_looseParts]
    rfl

theorem anchor_destination (root : Path) (value : LooseText) : (destination root value).anchor =
    if anchorOf value.visible.toList = .relative then root.anchor
    else anchorOf value.visible.toList := by
  rw [destination]
  split <;> rfl

theorem destination_ofString (h : IsTop root) (s : String) :
    destination root (.ofString s) = ⟨(root.join (ofString s)).normalise.anchor,
      (root.join (ofString s)).normalise.parts.map LooseText.ofString⟩ := by
  have hnames := names_destination h (.ofString s)
  have hanchor := anchor_destination root (.ofString s)
  rw [LooseText.visible_ofString] at hnames hanchor
  rw [looseParts_ofString] at hnames
  apply Destination.ext
  · rw [hanchor, normalise, join]
    by_cases hs : anchorOf s.toList = .relative
    · simp [isAbsolute, ofString, hs]
    · simp [isAbsolute, ofString, hs]
  · rw [hnames, normalise, map_resolveParts LooseText.ofString_injective, join]
    have habsolute := h.absolute
    by_cases hs : anchorOf s.toList = .relative
    · have hs' : (ofString s).isAbsolute = false := by
        simp [isAbsolute, ofString, hs]
      rw [if_pos hs, hs', if_neg Bool.false_ne_true, ← List.map_append]
      rw [isAbsolute] at habsolute ⊢
      rw [habsolute]
      rfl
    · have hs' : (ofString s).isAbsolute = true := by
        simp [isAbsolute, ofString, hs]
      rw [if_neg hs, hs', if_pos rfl, hs']
      rfl

@[simp] theorem looseInRepository_ofString (root : Path) (s : String) :
    root.looseInRepository s = (root.inRepository s).map LooseText.ofString := by
  rw [looseInRepository, LooseText.toString?_ofString]

theorem map_inRepository (h : IsTop root) (s : String) :
    (root.inRepository s).map LooseText.ofString =
      if (destination root s).IsBelow root then
        .ok (ofLooseParts ((destination root s).names.drop root.parts.length))
      else .error ⟨s, root⟩ := by
  have hbelow : (destination root s).IsBelow root ↔
      root.anchor = (root.join (ofString s)).normalise.anchor ∧
        root.parts <+: (root.join (ofString s)).normalise.parts := by
    rw [destination_ofString h, Destination.IsBelow,
      List.prefix_map_iff_of_injective LooseText.ofString_injective, eq_comm]
  have hwritten : LooseText.ofString
      (ofParts ((root.join (ofString s)).normalise.parts.drop root.parts.length)) =
        ofLooseParts ((destination root s).names.drop root.parts.length) := by
    rw [ofString_ofParts_eq, List.map_drop, destination_ofString h]
  rw [inRepository, normalise_of_isTop h, below?, ← hwritten]
  by_cases hd : (destination root s).IsBelow root
  · rw [if_pos hd, if_pos (by simpa [List.isPrefixOf_iff_prefix] using hbelow.mp hd)]
    rfl
  · rw [if_neg hd, if_neg (by simpa [List.isPrefixOf_iff_prefix] using hbelow.not.mp hd)]
    rfl

theorem looseInRepository_eq (h : IsTop root) (value : LooseText) :
    root.looseInRepository value = if (destination root value).IsBelow root then
      .ok (ofLooseParts ((destination root value).names.drop root.parts.length))
    else .error ⟨value, root⟩ := by
  cases hs : value.toString? with
  | some s =>
    obtain rfl := LooseText.toString?_eq_some.mp hs
    rw [looseInRepository_ofString, map_inRepository h]
  | none =>
    have hbelow : (destination root value).IsBelow root ↔
        (anchorOf value.visible.toList = .relative ∨ anchorOf value.visible.toList = root.anchor) ∧
          root.parts.map LooseText.ofString <+: (destination root value).names := by
      rw [Destination.IsBelow, anchor_destination]
      apply and_congr_left
      intro _
      split
      next hrelative => simp [hrelative]
      next hrelative => simp [hrelative]
    simp only [looseInRepository, hs, normalise_of_isTop h, ← names_destination h, hbelow,
      Bool.and_eq_true, Bool.or_eq_true, decide_eq_true_eq, List.isPrefixOf_iff_prefix,
      List.length_map]

theorem destination_ofLooseParts {names : List LooseText} (root : Path)
    (hnames : ∀ p ∈ names, IsLooseName p) : destination root (ofLooseParts names) =
      ⟨root.anchor, root.parts.map LooseText.ofString ++ names⟩ := by
  rw [destination, if_pos (anchorOf_ofLooseParts hnames)]
  cases names with
  | nil =>
    have hsteps : stepsOf (ofLooseParts []) = ["."] := by decide
    rw [hsteps, List.append_nil]
    rfl
  | cons p r =>
    rw [stepsOf_ofLooseParts (List.cons_ne_nil p r) hnames, foldl_goStep_names hnames]

theorem steps_ofLooseParts {names : List LooseText} (hnames : ∀ p ∈ names, IsLooseName p) :
    ofLooseParts names = "." ∨ ∀ s ∈ stepsOf (ofLooseParts names), s ≠ "" ∧ s ≠ "." ∧ s ≠ ".." := by
  cases names with
  | nil => exact .inl rfl
  | cons p r =>
    right
    rw [stepsOf_ofLooseParts (List.cons_ne_nil p r) hnames]
    intro s hs
    obtain ⟨hne, hdot, hup, -⟩ := hnames s hs
    exact ⟨hne, hdot, hup⟩

theorem destination_of_isBelow (h : (destination root value).IsBelow root) :
    destination root value = ⟨root.anchor, root.parts.map LooseText.ofString ++
      (destination root value).names.drop root.parts.length⟩ := by
  obtain ⟨hanchor, hprefix⟩ := h
  have hnames := List.prefix_iff_eq_append.mp hprefix
  rw [List.length_map] at hnames
  apply Destination.ext
  · exact hanchor
  · exact hnames.symm

theorem looseInRepository_eq_ok (h : IsTop root) {r : LooseText} :
    root.looseInRepository value = .ok r ↔ (destination root value).IsBelow root ∧
      ofLooseParts ((destination root value).names.drop root.parts.length) = r := by
  rw [looseInRepository_eq h]
  split
  next hbelow => simp [hbelow]
  next hbelow => simp [hbelow]

theorem destination_of_eq_ok (h : IsTop root) {r : LooseText}
    (hr : root.looseInRepository value = .ok r) :
    destination root r = destination root value := by
  obtain ⟨hbelow, rfl⟩ := (looseInRepository_eq_ok h).mp hr
  have hnames : ∀ p ∈ (destination root value).names.drop root.parts.length, IsLooseName p :=
    fun p hp => isLooseName_destination h value p (List.mem_of_mem_drop hp)
  rw [destination_ofLooseParts root hnames, ← destination_of_isBelow hbelow]

/-- A path that leads out of the repository is refused. Any other is taken in the one written form
of the place that it leads to. -/
theorem looseInRepository_leads (root : Path) (h : IsTop root) (value : LooseText) :
    (root.looseInRepository value = .error ⟨value, root⟩ ↔
      ¬(destination root value).IsBelow root) ∧
    ((destination root value).IsBelow root → ∃ r, root.looseInRepository value = .ok r ∧
      (r = "." ∨ ∀ s ∈ stepsOf r, s ≠ "" ∧ s ≠ "." ∧ s ≠ "..") ∧
      destination root r = destination root value ∧
      root.looseInRepository r = .ok r ∧
      ∀ value' r', root.looseInRepository value' = .ok r' →
        (r = r' ↔ destination root value = destination root value')) := by
  constructor
  · rw [looseInRepository_eq h]
    split
    next hbelow => simp [hbelow]
    next hbelow => simp [hbelow]
  · intro hbelow
    obtain ⟨r, hr⟩ : ∃ r, root.looseInRepository value = .ok r :=
      ⟨_, (looseInRepository_eq_ok h).mpr ⟨hbelow, rfl⟩⟩
    have hleads := destination_of_eq_ok h hr
    have hwritten := ((looseInRepository_eq_ok h).mp hr).2
    refine ⟨r, hr, ?_, hleads, ?_, ?_⟩
    · rw [← hwritten]
      apply steps_ofLooseParts
      exact fun p hp => isLooseName_destination h value p (List.mem_of_mem_drop hp)
    · rw [looseInRepository_eq_ok h, hleads]
      exact ⟨hbelow, hwritten⟩
    · intro value' r' hr'
      constructor
      · intro heq
        rw [← hleads, heq, destination_of_eq_ok h hr']
      · intro hsame
        rw [← hwritten, hsame]
        exact ((looseInRepository_eq_ok h).mp hr').2

theorem isTop_app : IsTop ⟨.root, ["srv", "app"]⟩ := ⟨by decide, by decide, by decide⟩

/-- The first path leaves the repository and comes back; the second leads to a folder beside it. -/
theorem looseInRepository_reenters :
    IsTop ⟨.root, ["srv", "app"]⟩ ∧
      looseInRepository ⟨.root, ["srv", "app"]⟩ "lib/../../app//./core.py" = .ok "core.py" ∧
      looseInRepository ⟨.root, ["srv", "app"]⟩ "/srv/apple/core.py" =
        .error ⟨"/srv/apple/core.py", ⟨.root, ["srv", "app"]⟩⟩ := by
  refine ⟨isTop_app, ?_, ?_⟩
  · obtain ⟨r, hr, -, -, -, honly⟩ :=
      (looseInRepository_leads _ isTop_app "lib/../../app//./core.py").2 (by decide)
    rw [hr, (honly "core.py" "core.py" (by decide)).mpr (by decide)]
  · exact (looseInRepository_leads _ isTop_app "/srv/apple/core.py").1.mpr (by decide)

end Destination

end ChangeImpact.Path
