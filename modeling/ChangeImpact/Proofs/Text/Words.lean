import ChangeImpact.Proofs.Path.Parts
import ChangeImpact.Proofs.Text.Strip

/-!
# Words and lists of words

Blanks around a word do not belong to it. So the first words of the fields of a list stay the
same when the margins of the list are cut off.
-/

namespace ChangeImpact.Text

theorem isWord_of_isBlank {c : Char} (h : isBlank c = true) : isWord c = false := by
  have hlow : ∀ n < 33, isWord (Char.ofNat n) = false := by decide +kernel
  have hspace : ∀ n < 11, isWord (Char.ofNat (0x2000 + n)) = false := by decide +kernel
  have hlone : ∀ n ∈ [0x85, 0xA0, 0x1680, 0x2028, 0x2029, 0x202F, 0x205F, 0x3000],
      isWord (Char.ofNat n) = false := by decide +kernel
  simp only [isBlank, Bool.or_eq_true, Bool.and_eq_true, decide_eq_true_eq, beq_iff_eq] at h
  have hcases : c.toNat < 33 ∨ (0x2000 ≤ c.toNat ∧ c.toNat - 0x2000 < 11) ∨
      c.toNat ∈ [0x85, 0xA0, 0x1680, 0x2028, 0x2029, 0x202F, 0x205F, 0x3000] := by
    simp only [List.mem_cons, List.not_mem_nil, or_false]
    omega
  rw [← Char.ofNat_toNat c]
  obtain hc | ⟨hle, hc⟩ | hc := hcases
  · exact hlow _ hc
  · rw [← Nat.add_sub_of_le hle]
    exact hspace _ hc
  · exact hlone _ hc

theorem words_append_cons {c : Char} (hc : isBlank c = true) (s t : List Char) :
    words (s ++ c :: t) = words s ++ words t := by
  simp only [words, splitWhere_eq_splitOnP, List.splitOnP_append_cons _ _ hc, List.filter_append]

theorem words_of_blank {s : List Char} (h : ∀ c ∈ s, isBlank c = true) : words s = [] := by
  induction s with
  | nil => rfl
  | cons c r ih =>
    obtain ⟨hc, hr⟩ := List.forall_mem_cons.mp h
    have hcons := words_append_cons hc [] r
    rw [List.nil_append] at hcons
    rw [hcons, ih hr]
    rfl

theorem words_blank_append {b : List Char} (h : ∀ c ∈ b, isBlank c = true) (s : List Char) :
    words (b ++ s) = words s := by
  induction b with
  | nil => rfl
  | cons c r ih =>
    obtain ⟨hc, hr⟩ := List.forall_mem_cons.mp h
    have hcons := words_append_cons hc [] (r ++ s)
    rw [List.nil_append] at hcons
    rw [List.cons_append, hcons, ih hr]
    rfl

theorem words_append_blank {b : List Char} (h : ∀ c ∈ b, isBlank c = true) (s : List Char) :
    words (s ++ b) = words s := by
  cases b with
  | nil => rw [List.append_nil]
  | cons c r =>
    obtain ⟨hc, hr⟩ := List.forall_mem_cons.mp h
    rw [words_append_cons hc, words_of_blank hr, List.append_nil]

theorem words_of_noBlank {s : List Char} (hne : s ≠ []) (h : ∀ c ∈ s, isBlank c = false) :
    words s = [s] := by
  rw [words, splitWhere_eq_splitOnP, List.splitOnP_eq_singleton h]
  simp [hne]

def firstWords (s : List Char) : List (List Char) :=
  (splitOn ',' s).filterMap fun field => (words field).head?

theorem firstWords_intercalate {fields : List (List Char)} (h : ∀ f ∈ fields, ',' ∉ f)
    (hne : fields ≠ []) : firstWords ([','].intercalate fields) =
      fields.filterMap fun field => (words field).head? := by
  rw [firstWords, splitOn, splitWhere_eq_splitOnP]
  exact congrArg _ (List.splitOn_intercalate ',' h hne)

theorem firstWords_cons {c : Char} (hc : isBlank c = true) (s : List Char) :
    firstWords (c :: s) = firstWords s := by
  have hcomma : (c == ',') = false := by
    rw [beq_eq_false_iff_ne]
    intro heq
    exact absurd hc (heq ▸ by decide)
  have hwords : ∀ f, words (c :: f) = words f := fun f => words_append_cons hc [] f
  rw [firstWords, firstWords, splitOn, splitWhere, hcomma, if_neg Bool.false_ne_true]
  cases splitWhere (· == ',') s with
  | nil => rw [List.filterMap_cons_none (by rw [hwords]; rfl)]
  | cons f fs => simp only [List.filterMap_cons, hwords]

theorem firstWords_blank_append {b : List Char} (hb : ∀ c ∈ b, isBlank c = true) (s : List Char) :
    firstWords (b ++ s) = firstWords s := by
  induction b with
  | nil => rfl
  | cons c r ih =>
    obtain ⟨hc, hr⟩ := List.forall_mem_cons.mp hb
    rw [List.cons_append, firstWords_cons hc, ih hr]

theorem exists_splitOn_append {sep : Char} {t : List Char} (ht : sep ∉ t) (s : List Char) :
    ∃ init last, splitOn sep s = init ++ [last] ∧ splitOn sep (s ++ t) = init ++ [last ++ t] := by
  induction s with
  | nil => exact ⟨[], [], rfl, splitOn_of_notMem ht⟩
  | cons c r ih =>
    obtain ⟨init, last, hr, hrt⟩ := ih
    rw [splitOn] at hr hrt
    rw [splitOn, List.cons_append, splitWhere, splitWhere, hr, hrt]
    split
    · exact ⟨[] :: init, last, rfl, rfl⟩
    · cases init with
      | nil => exact ⟨[], c :: last, rfl, rfl⟩
      | cons f fs => exact ⟨(c :: f) :: fs, last, rfl, rfl⟩

theorem firstWords_append {t : List Char} (ht : ∀ c ∈ t, isBlank c = true) (s : List Char) :
    firstWords (s ++ t) = firstWords s := by
  have hcomma : ',' ∉ t := fun hmem => absurd (ht _ hmem) (by decide)
  obtain ⟨init, last, hs, hst⟩ := exists_splitOn_append hcomma s
  rw [firstWords, firstWords, hs, hst, List.filterMap_append, List.filterMap_append]
  simp only [List.filterMap_cons, List.filterMap_nil, words_append_blank ht]

theorem firstWords_of_blank {s : List Char} (h : ∀ c ∈ s, isBlank c = true) :
    firstWords s = [] := by
  have hempty := firstWords_append h []
  rwa [List.nil_append] at hempty

theorem firstWords_append_comma (s t : List Char) :
    firstWords (s ++ ',' :: t) = firstWords s ++ firstWords t := by
  have hsplit := List.splitOnP_append_cons (p := fun c => c == ',') s t (beq_self_eq_true ',')
  rw [firstWords, splitOn, splitWhere_eq_splitOnP, hsplit, List.filterMap_append]
  simp only [firstWords, splitOn, splitWhere_eq_splitOnP]

theorem firstWords_word {w s : List Char} (hne : w ≠ []) (hw : ∀ c ∈ w, isBlank c = false)
    (hs : ∀ c ∈ s.head?, isBlank c = true) (hcomma : ',' ∉ w ++ s) : firstWords (w ++ s) = [w] := by
  have hone : splitOn ',' (w ++ s) = [w ++ s] := splitOn_of_notMem hcomma
  have hfirst : (words (w ++ s)).head? = some w := by
    cases s with
    | nil => rw [List.append_nil, words_of_noBlank hne hw, List.head?_singleton]
    | cons c r =>
      rw [words_append_cons (hs c rfl), words_of_noBlank hne hw]
      rfl
  simp only [firstWords, hone, List.filterMap_cons, hfirst, List.filterMap_nil]

theorem firstWords_dropWhile {p : Char → Bool} {s : List Char}
    (h : ∀ c ∈ s, p c = true → isBlank c = true) : firstWords (s.dropWhile p) = firstWords s := by
  induction s with
  | nil => rfl
  | cons c r ih =>
    obtain ⟨hc, hr⟩ := List.forall_mem_cons.mp h
    rw [List.dropWhile_cons]
    split
    next hp => rw [ih hr, firstWords_cons (hc hp)]
    next => rfl

theorem firstWords_trim {p : Char → Bool} {s : List Char}
    (h : ∀ c ∈ s, p c = true → isBlank c = true) : firstWords (trim p s) = firstWords s := by
  obtain ⟨t, ht, hs⟩ := exists_trimRight p (s.dropWhile p)
  have hmem : ∀ c ∈ t, c ∈ s := fun c hc =>
    (List.dropWhile_suffix p).subset (hs ▸ List.mem_append_right _ hc)
  have hblank : ∀ c ∈ t, isBlank c = true := fun c hc => h c (hmem c hc) (ht c hc)
  rw [← firstWords_dropWhile h, ← hs, firstWords_append hblank, trim]

end ChangeImpact.Text
