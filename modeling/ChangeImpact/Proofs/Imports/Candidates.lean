import ChangeImpact.Imports.Resolver
import ChangeImpact.Proofs.Path.Parts
import Mathlib.Data.List.Find
import Mathlib.Data.List.TakeWhile

/-!
# The candidates of a specifier

Seen from a file inside the repository, a specifier stands for a written path, and each of its
candidates is a path of plain names. The folders above an earlier candidate lie above every later
one too (`pairwise_folders`), so an earlier candidate can hide a later one only where both lie
below the same folders.
-/

namespace ChangeImpact.Imports.Resolver

open ChangeImpact.Path

def folders (path : String) : List String := (ofString path).parts.dropLast

theorem folders_ofParts {parts : List String} (h : ∀ p ∈ parts, IsPart p) :
    folders (ofParts parts) = parts.dropLast := by
  rw [folders, ofString_ofParts h]

/-- No folder on the way to a file is ignored. -/
def isKept (ignored : List String) (path : String) : Bool :=
  (folders path).all fun name => !ignored.contains name

theorem head_of_isPrefix {s t : List Char} {c : Char} (h : s <+: t) (ht : t.head? ≠ some c) :
    s.head? ≠ some c := by
  cases s with
  | nil => simp
  | cons a r =>
    obtain ⟨u, rfl⟩ := h
    simpa using ht

theorem trimRight_isPrefix (p : Char → Bool) (s : List Char) : Text.trimRight p s <+: s := by
  have h := List.reverse_prefix.mpr (List.dropWhile_suffix p (l := s.reverse))
  rwa [List.reverse_reverse] at h

theorem directoryText_isPrefix (s : String) : (directoryText s).toList <+: s.toList := by
  have hdir := trimRight_isPrefix (· != '/') s.toList
  rw [directoryText, String.toList_ofList]
  split
  · exact hdir
  · exact (trimRight_isPrefix _ _).trans hdir

theorem head_joinText {a b : String} (ha : a.toList.head? ≠ some '/')
    (hb : b.toList.head? ≠ some '/') : (joinText a b).toList.head? ≠ some '/' := by
  simp only [joinText, beq_eq_false_iff_ne.mpr hb, Bool.false_eq_true, if_false]
  split
  next h =>
    rcases List.eq_nil_or_concat a.toList with hn | _
    · simpa [hn] using hb
    · cases hl : a.toList with
      | nil => simpa [hl] using hb
      | cons c r => simpa [hl] using ha
  next h =>
    cases hl : a.toList with
    | nil =>
      have := String.toList_eq_nil_iff.mp hl
      simp [this] at h
    | cons c r => simpa [hl] using ha

theorem base_eq_ofParts (specifier : String) {referencer : String}
    (h : referencer.toList.head? ≠ some '/') :
    ∃ parts, (∀ p ∈ parts, IsPart p) ∧ IsNormal parts ∧
      base specifier referencer = ofParts parts := by
  delta base
  dsimp only
  split
  next r _ =>
    refine normalText_eq_ofParts ?_
    rw [String.toList_ofList]
    have := List.head?_dropWhile_not (· == '/') r
    cases hd : r.dropWhile (· == '/') with
    | nil => simp
    | cons c r' =>
      rw [hd] at this
      simpa using this
  next hne =>
    have hdir := head_of_isPrefix (directoryText_isPrefix referencer) h
    refine normalText_eq_ofParts (head_joinText hdir fun hs => ?_)
    cases hl : (normalise (withoutQuery specifier)).toList with
    | nil => simp [hl] at hs
    | cons c r =>
      rw [hl] at hs
      obtain rfl : c = '/' := by simpa using hs
      exact hne r hl

def choices (parts : List String) : List (List String) :=
  match parts.getLast? with
  | none => indexFiles.map fun index => [index]
  | some last =>
    parts :: extensions.map (fun ending => parts.dropLast ++ [last ++ ending]) ++
      indexFiles.map fun index => parts ++ [index]

theorem choices_nil : choices [] = indexFiles.map fun index => [index] := rfl

theorem choices_concat (init : List String) (last : String) :
    choices (init ++ [last]) =
      (init ++ [last]) :: extensions.map (fun ending => init ++ [last ++ ending]) ++
        indexFiles.map fun index => init ++ [last] ++ [index] := by
  simp [choices]

theorem ending_spec : ∀ e ∈ extensions, 2 < e.toList.length ∧ '/' ∉ e.toList := by decide

theorem index_spec : ∀ i ∈ indexFiles, IsPart i ∧ i ≠ ".." := by decide

theorem isPart_append {last e : String} (hl : IsPart last) (he : e ∈ extensions) :
    IsPart (last ++ e) ∧ last ++ e ≠ ".." := by
  obtain ⟨hlong, hslash⟩ := ending_spec e he
  have hlen : 2 < (last ++ e).toList.length := by
    rw [String.toList_append, List.length_append]
    omega
  refine ⟨isPart_of_one_lt_length (Nat.lt_of_succ_lt hlen) ?_, fun h => ?_⟩
  · rw [String.toList_append, List.mem_append, not_or]
    exact ⟨hl.2.2, hslash⟩
  · simp [h] at hlen

theorem intercalate_concat {α : Type} (sep : List α) (init : List (List α)) (last : List α) :
    sep.intercalate (init ++ [last]) = (init.map (· ++ sep)).flatten ++ last := by
  induction init with
  | nil => simp
  | cons a r ih =>
    cases r with
    | nil => simp [List.intercalate]
    | cons b r' =>
      rw [List.cons_append, List.cons_append, List.intercalate_cons_cons, ← List.cons_append, ih]
      simp

theorem toList_ofParts_concat (init : List String) (last : String) :
    (ofParts (init ++ [last])).toList =
      (init.map fun p => p.toList ++ ['/']).flatten ++ last.toList := by
  rw [toList_ofParts (by simp), List.map_append, List.map_singleton, intercalate_concat,
    List.map_map]
  rfl

theorem ofParts_concat_ne {init : List String} {last : String}
    (h : ∀ p ∈ init ++ [last], IsPart p) :
    ofParts (init ++ [last]) ≠ "." ∧ ofParts (init ++ [last]) ≠ "" := by
  have hread := congrArg Path.parts (ofString_ofParts h)
  constructor
  all_goals
    intro he
    rw [he] at hread
    exact absurd hread.symm (by simp [show (ofString ".").parts = [] by decide,
      show (ofString "").parts = [] by decide])

theorem joinText_concat {init : List String} {last b : String}
    (h : ∀ p ∈ init ++ [last], IsPart p) (hb : b.toList.head? ≠ some '/') :
    joinText (ofParts (init ++ [last])) b = ofParts (init ++ [last]) ++ "/" ++ b := by
  obtain ⟨hne, -, hslash⟩ := h last (by simp)
  have hlast : (ofParts (init ++ [last])).toList.getLast? ≠ some '/' := by
    rw [toList_ofParts_concat]
    rcases List.eq_nil_or_concat last.toList with hn | ⟨cs, c, hc⟩
    · exact absurd (String.toList_eq_nil_iff.mp hn) hne
    · rw [List.concat_eq_append] at hc
      rw [hc, ← List.append_assoc, List.getLast?_concat]
      intro heq
      simp [hc, Option.some.inj heq] at hslash
  simp [joinText, hb, hlast, (ofParts_concat_ne h).2]

theorem possibleFiles_ofParts {parts : List String} (h : ∀ p ∈ parts, IsPart p) :
    possibleFiles (ofParts parts) = (choices parts).map ofParts := by
  rcases List.eq_nil_or_concat parts with rfl | ⟨init, last, rfl⟩
  · decide
  · rw [List.concat_eq_append] at *
    obtain ⟨hdot, hempty⟩ := ofParts_concat_ne h
    rw [possibleFiles, if_neg (by simp [hdot, hempty]), choices_concat]
    simp only [List.map_append, List.map_cons, List.map_map, List.cons_append]
    congr 2
    · refine List.map_congr_left fun e _ => String.toList_injective ?_
      simp [toList_ofParts_concat]
    · refine List.map_congr_left fun i hi => String.toList_injective ?_
      have hhead : i.toList.head? ≠ some '/' := fun hs =>
        (index_spec i hi).1.2.2 (List.mem_of_head? hs)
      rw [joinText_concat h hhead, Function.comp_apply, toList_ofParts_concat _ i]
      simp [toList_ofParts_concat]

theorem isNormal_of_mem_choices {parts c : List String} (h : ∀ p ∈ parts, IsPart p)
    (hn : IsNormal parts) (hc : c ∈ choices parts) : (∀ p ∈ c, IsPart p) ∧ IsNormal c := by
  have hadd : ∀ {init : List String} {last : String}, (∀ p ∈ init, IsPart p) → IsNormal init →
      IsPart last → last ≠ ".." → (∀ p ∈ init ++ [last], IsPart p) ∧ IsNormal (init ++ [last]) := by
    intro init last hi hin hl hup
    refine ⟨?_, List.pairwise_append.mpr ⟨hin, List.pairwise_singleton _ _, ?_⟩⟩
    · simp only [List.mem_append, List.mem_singleton]
      intro p hmem
      rcases hmem with hp | rfl
      exacts [hi p hp, hl]
    · intro a _ b hb hbup
      exact absurd ((List.mem_singleton.mp hb).symm.trans hbup) hup
  rcases List.eq_nil_or_concat parts with rfl | ⟨init, last, rfl⟩
  · rw [choices_nil] at hc
    obtain ⟨i, hi, rfl⟩ := List.mem_map.mp hc
    exact hadd (by simp) .nil (index_spec i hi).1 (index_spec i hi).2
  · rw [List.concat_eq_append] at *
    have hinit : (∀ p ∈ init, IsPart p) ∧ IsNormal init :=
      ⟨fun p hp => h p (List.mem_append_left _ hp), (List.pairwise_append.mp hn).1⟩
    rw [choices_concat, List.cons_append, List.mem_cons, List.mem_append] at hc
    rcases hc with rfl | hc | hc
    · exact ⟨h, hn⟩
    · obtain ⟨e, he, rfl⟩ := List.mem_map.mp hc
      obtain ⟨hpart, hup⟩ := isPart_append (h last (by simp)) he
      exact hadd hinit.1 hinit.2 hpart hup
    · obtain ⟨i, hi, rfl⟩ := List.mem_map.mp hc
      exact hadd h hn (index_spec i hi).1 (index_spec i hi).2

/-- A choice lies below the folders above those before it. -/
theorem pairwise_choices (parts : List String) :
    (choices parts).Pairwise fun c d => c.dropLast <+: d.dropLast := by
  rcases List.eq_nil_or_concat parts with rfl | ⟨init, last, rfl⟩
  · decide
  · rw [List.concat_eq_append, choices_concat, List.cons_append, List.pairwise_cons,
      List.pairwise_append, List.pairwise_map, List.pairwise_map]
    refine ⟨?_, ?_, ?_, ?_⟩
    · intro d hd
      rcases List.mem_append.mp hd with hd | hd
      · obtain ⟨e, _, rfl⟩ := List.mem_map.mp hd
        simp
      · obtain ⟨i, _, rfl⟩ := List.mem_map.mp hd
        simp
    · exact List.pairwise_of_forall fun _ _ => by simp
    · exact List.pairwise_of_forall fun _ _ => by simp
    · intro c hc d hd
      obtain ⟨e, _, rfl⟩ := List.mem_map.mp hc
      obtain ⟨i, _, rfl⟩ := List.mem_map.mp hd
      simp

theorem staysInside_ofParts {parts : List String} (hn : IsNormal parts)
    (h : staysInside (ofParts parts) = true) : parts ≠ [] ∧ ".." ∉ parts := by
  cases parts with
  | nil => exact absurd h (by decide)
  | cons p r =>
    refine ⟨List.cons_ne_nil _ _, fun hup => ?_⟩
    obtain rfl : p = ".." := by
      rcases List.mem_cons.mp hup with hp | hr
      · exact hp.symm
      · exact (List.pairwise_cons.mp hn).1 _ hr rfl
    cases r with
    | nil => exact absurd h (by decide)
    | cons q s =>
      have hstart : "../".toList.isPrefixOf (ofParts (".." :: q :: s)).toList = true := by
        rw [toList_ofParts (List.cons_ne_nil _ _)]
        simp [List.intercalate_cons_cons]
      simp only [staysInside, hstart, Bool.not_true, Bool.and_false, Bool.false_eq_true] at h

theorem candidates_of_base {specifier referencer : String} {parts : List String}
    (hparts : ∀ p ∈ parts, IsPart p) (hn : IsNormal parts)
    (hbase : base specifier referencer = ofParts parts) : candidates specifier referencer =
      ((choices parts).filter fun c => staysInside (ofParts c)).map ofParts := by
  have hid : ((choices parts).map ofParts).map normalText = (choices parts).map ofParts := by
    rw [List.map_map]
    refine List.map_congr_left fun c hc => ?_
    obtain ⟨hp, hcn⟩ := isNormal_of_mem_choices hparts hn hc
    exact normalText_ofParts hp hcn
  rw [candidates, hbase, possibleFiles_ofParts hparts, hid, List.filter_map]
  rfl

theorem candidates_eq (specifier : String) {referencer : String}
    (h : referencer.toList.head? ≠ some '/') :
    ∃ cs : List (List String), candidates specifier referencer = cs.map ofParts ∧
      (∀ c ∈ cs, (∀ p ∈ c, IsPart p) ∧ c ≠ [] ∧ ".." ∉ c) ∧
      cs.Pairwise fun c d => c.dropLast <+: d.dropLast := by
  obtain ⟨parts, hparts, hn, hbase⟩ := base_eq_ofParts specifier h
  refine ⟨(choices parts).filter fun c => staysInside (ofParts c),
    candidates_of_base hparts hn hbase, fun c hc => ?_, (pairwise_choices parts).filter _⟩
  rw [List.mem_filter] at hc
  obtain ⟨hp, hcn⟩ := isNormal_of_mem_choices hparts hn hc.1
  exact ⟨hp, staysInside_ofParts hcn hc.2⟩

theorem base_beside {name referencer : String} (hname : IsPart name) (hquery : '?' ∉ name.toList)
    (href : '/' ∉ referencer.toList) : base ("./" ++ name) referencer = name := by
  have hlist : ("./" ++ name).toList = '.' :: '/' :: name.toList := by
    rw [String.toList_append]
    rfl
  have hwhole : withoutQuery ("./" ++ name) = "./" ++ name := by
    rw [withoutQuery, List.takeWhile_eq_self_iff.mpr, String.ofList_toList]
    rw [hlist]
    simpa using fun c hc => ne_of_mem_of_not_mem hc hquery
  have hnormal : normalise ("./" ++ name) = "./" ++ name := by
    rw [normalise, if_pos]
    rw [hlist]
    simp [hasPathForm]
  have hdir : directoryText referencer = "" := by
    have : referencer.toList.reverse.dropWhile (· != '/') = [] := by
      rw [List.dropWhile_eq_nil_iff]
      simpa using fun c hc => ne_of_mem_of_not_mem hc href
    rw [directoryText, this]
    decide
  have hjoin : joinText "" ("./" ++ name) = "./" ++ name := by
    rw [joinText, hlist]
    simp
  have hparts : ofString ("./" ++ name) = ⟨.relative, [name]⟩ := by
    have hcut : ("./" ++ name).toList = ['/'].intercalate [['.'], name.toList] := by
      rw [hlist]
      simp [List.intercalate]
    have hsplit : Text.splitOn '/' ("./" ++ name).toList = [['.'], name.toList] := by
      rw [hcut, Text.splitOn, Text.splitWhere_eq_splitOnP]
      refine List.splitOn_intercalate '/' ?_ (by simp)
      simpa using hname.2.2
    rw [ofString, Text.fields, hsplit, hlist]
    simp [anchorOf, hname.1, hname.2.1]
  have hresolved : (Path.mk .relative [name]).normalise = ⟨.relative, [name]⟩ := by
    simp [Path.normalise, resolveParts, isAbsolute]
  delta base
  dsimp only
  rw [hwhole, hnormal, hdir, hjoin, hlist, normalText, hparts]
  simp [hresolved, text, Anchor.text]

theorem exists_candidates_beside {name referencer : String} (hname : IsPart name)
    (hup : name ≠ "..") (hquery : '?' ∉ name.toList) (href : '/' ∉ referencer.toList) :
    ∃ rest, candidates ("./" ++ name) referencer = name :: rest := by
  have hone : ofParts [name] = name := by simp [ofParts, text, Anchor.text]
  have hparts : ∀ p ∈ [name], IsPart p := List.forall_mem_singleton.mpr hname
  have hnormal : normalText name = name := by
    rw [← hone, normalText_ofParts hparts (List.pairwise_singleton _ _)]
  have hstays : staysInside name = true := by
    have hslash : "../".toList.isPrefixOf name.toList = false := by
      rw [Bool.eq_false_iff, ne_eq, List.isPrefixOf_iff_prefix]
      exact fun h => hname.2.2 (h.subset (by decide))
    simp only [staysInside, hslash, Bool.and_eq_true, bne_iff_ne, Bool.not_false, and_true]
    exact ⟨⟨hname.1, hname.2.1⟩, hup⟩
  have hpossible : possibleFiles name = (choices [name]).map ofParts := by
    rw [← possibleFiles_ofParts hparts, hone]
  rw [candidates, base_beside hname hquery href, hpossible, ← List.nil_append [name],
    choices_concat]
  simp only [List.nil_append, List.map_cons, List.cons_append, hone, hnormal, List.filter_cons,
    hstays, if_true]
  exact ⟨_, rfl⟩

theorem resolve?_eq_some {r : Resolver} {specifier referencer target : String} :
    r.resolve? specifier referencer = some target ↔ isRelative specifier ∧
      (candidates specifier referencer).find? (fun path => !r.verify || r.isFile path) =
        some target ∧ target ≠ referencer := by
  unfold resolve?
  split
  next hrel =>
    cases (candidates specifier referencer).find? fun path => !r.verify || r.isFile path with
    | none => simp
    | some path =>
      simp only [Option.some.injEq, hrel, true_and]
      split
      next he =>
        rw [beq_iff_eq] at he
        simp only [reduceCtorEq, false_iff, not_and]
        intro heq
        obtain rfl := heq
        exact not_not.mpr he
      next he =>
        rw [beq_iff_eq] at he
        simp only [Option.some.injEq, iff_self_and]
        intro heq
        obtain rfl := heq
        exact he
  next hrel => simp [hrel]

theorem resolve?_spec {r : Resolver} {specifier referencer target : String}
    (h : r.resolve? specifier referencer = some target) :
    target ∈ candidates specifier referencer ∧ target ≠ "" ∧ target ≠ referencer ∧
      (r.verify = true → r.isFile target = true) := by
  obtain ⟨-, hfind, hne⟩ := resolve?_eq_some.mp h
  have hmem := List.mem_of_find?_eq_some hfind
  have hstays := (List.mem_filter.mp hmem).2
  simp only [staysInside, Bool.and_eq_true, bne_iff_ne] at hstays
  refine ⟨hmem, hstays.1.1.1, hne, fun hv => ?_⟩
  simpa [hv] using List.find?_some hfind

theorem exists_parts_of_mem_candidates {specifier referencer path : String}
    (href : referencer.toList.head? ≠ some '/') (h : path ∈ candidates specifier referencer) :
    ∃ parts, ofParts parts = path ∧ (∀ p ∈ parts, IsPart p) ∧ parts ≠ [] ∧ ".." ∉ parts := by
  obtain ⟨cs, hcs, hspec, -⟩ := candidates_eq specifier href
  rw [hcs] at h
  obtain ⟨c, hc, rfl⟩ := List.mem_map.mp h
  exact ⟨c, rfl, hspec c hc⟩

theorem of_mem_passedOver {r : Resolver} {specifier referencer path : String}
    (h : path ∈ r.passedOver specifier referencer) :
    path ∈ candidates specifier referencer ∧ r.isFile path = false := by
  unfold passedOver at h
  split at h
  · exact ⟨(List.takeWhile_sublist _).subset h, by simpa using List.mem_takeWhile_imp h⟩
  · cases h

/-- Two searches find the same item of a list where neither stops before the first find of `p`, and
a find of `p` is passed over only for a reason that holds of all later items. -/
theorem find?_eq_some_iff_of_passes {α : Type} {p known q : α → Bool} {l : List α}
    (hpair : l.Pairwise fun a b => q b → q a) (hfront : ∀ a ∈ l.takeWhile (!p ·), known a = false)
    (hhit : ∀ a ∈ l, p a → known a = q a) {x : α} (hx : q x) :
    l.find? known = some x ↔ l.find? p = some x := by
  induction l with
  | nil => rfl
  | cons a r ih =>
    obtain ⟨ha, hr⟩ := List.pairwise_cons.mp hpair
    by_cases hp : p a
    · have hknown := hhit a List.mem_cons_self hp
      by_cases hq : q a
      · simp [hp, hq, hknown]
      · have hleft : ¬ r.find? known = some x := fun hf =>
          hq (ha x (List.mem_of_find?_eq_some hf) hx)
        have hright : a ≠ x := fun he => hq (he ▸ hx)
        simp [hp, hq, hknown, hleft, hright]
    · have hknown : known a = false := hfront a (by simp [hp])
      rw [List.find?_cons_of_neg (by simp [hknown]), List.find?_cons_of_neg hp]
      refine ih hr (fun b hb => hfront b ?_) fun b hb => hhit b (List.mem_cons_of_mem _ hb)
      rw [List.takeWhile_cons_of_pos (by simp [hp])]
      exact List.mem_cons_of_mem _ hb

/-- Files below ignored folders hide no other file from an import, where the files that are known
are looked for like those that are there. -/
theorem resolve?_ignored {isFile known : String → Bool} {verify : Bool} {ignored : List String}
    {specifier referencer target : String} (href : referencer.toList.head? ≠ some '/')
    (hfront : ∀ path ∈ passedOver ⟨isFile, verify⟩ specifier referencer, known path = false)
    (hhit : ∀ path ∈ candidates specifier referencer, isFile path →
      known path = isKept ignored path)
    (htarget : isKept ignored target) :
    Resolver.resolve? ⟨known, verify⟩ specifier referencer = some target ↔
      Resolver.resolve? ⟨isFile, verify⟩ specifier referencer = some target := by
  obtain ⟨cs, hcs, hspec, hpair⟩ := candidates_eq specifier href
  rw [resolve?_eq_some, resolve?_eq_some]
  refine and_congr_right fun hrelative => and_congr_left fun _ => ?_
  cases verify with
  | false => rfl
  | true =>
    have hpairs : (candidates specifier referencer).Pairwise fun a b =>
        isKept ignored b → isKept ignored a := by
      rw [hcs, List.pairwise_map]
      refine hpair.imp_of_mem fun {c d} hc hd hstart hall => ?_
      rw [isKept, folders_ofParts (hspec d hd).1, List.all_eq_true] at hall
      rw [isKept, folders_ofParts (hspec c hc).1, List.all_eq_true]
      exact fun p hp => hall p (hstart.subset hp)
    have hpassed : passedOver ⟨isFile, true⟩ specifier referencer =
        (candidates specifier referencer).takeWhile (!isFile ·) := by
      rw [passedOver, hrelative]
      rfl
    rw [hpassed] at hfront
    simp only [Bool.not_true, Bool.false_or]
    exact find?_eq_some_iff_of_passes hpairs hfront hhit htarget

end ChangeImpact.Imports.Resolver
