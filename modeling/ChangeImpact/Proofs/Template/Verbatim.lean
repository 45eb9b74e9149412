import ChangeImpact.Proofs.Template.Grammar
import ChangeImpact.Proofs.Text.Integer

/-!
# Templates that are filled in verbatim

A plain template has fields that are names of values and nothing else. Filling it in puts every
value where its name stands; whatever a value holds is not read again. The only thing that can go
wrong with values that are there is a number with too many digits: `fill_eq_ok`.
-/

namespace ChangeImpact.Template

def isKey (name : List Char) : Bool :=
  isName false name && headName name == name && name.any (!Text.isDigit ·)

namespace Value

def plain : Value → List Char
  | text s => s.toList
  | number n => (Decimal.ofInt n).toList

def IsWritten : Value → Prop
  | text _ => True
  | number n => Text.IsReadable n.natAbs

theorem mapError_written_eq_ok {v : Value} {s : String} {ε : Type} {f : LayoutError → ε} :
    v.written.mapError f = .ok s ↔ v.IsWritten ∧ v.plain = s.toList := by
  rw [mapError_eq_ok]
  cases v with
  | text t => simp [written, IsWritten, plain, String.toList_inj]
  | number n =>
    rw [written, IsWritten, Text.IsReadable, plain]
    by_cases h : (Decimal.digits n.natAbs).length ≤ Text.digitLimit
    · simp [Layout.isOverlong, Nat.not_lt.mpr h, h, String.toList_inj]
    · simp [Layout.isOverlong, Nat.lt_of_not_le h, h]

end Value

namespace Markup

def IsPlain : Markup → Prop
  | text _ => True
  | field _ name conversion rest => isKey name ∧ conversion = none ∧ rest.IsPlain
  | laid .. => False

instance decidableIsPlain : (m : Markup) → Decidable m.IsPlain
  | text _ => isTrue trivial
  | field _ name conversion rest =>
    have := decidableIsPlain rest
    inferInstanceAs (Decidable (isKey name ∧ conversion = none ∧ rest.IsPlain))
  | laid .. => isFalse id

def names : Markup → List String
  | text _ => []
  | field _ name _ rest => String.ofList name :: rest.names
  | laid _ name _ layout rest => String.ofList name :: (layout.names ++ rest.names)

def ending : Markup → List Char
  | text s => s
  | field _ _ _ rest => rest.ending
  | laid _ _ _ _ rest => rest.ending

def replaced? (values : Values) : Markup → Option (List Char)
  | text s => some s
  | field before name _ rest =>
    (values.lookup (String.ofList name)).bind fun v =>
      (rest.replaced? values).map fun behind => before ++ (v.plain ++ behind)
  | laid .. => none

theorem IsPlain.isWellFormed {m : Markup} (h : m.IsPlain) : m.IsWellFormed := by
  induction m with
  | text => trivial
  | field before name conversion rest ih =>
    obtain ⟨hkey, -, hrest⟩ := h
    simp only [isKey, Bool.and_eq_true] at hkey
    exact ⟨hkey.1.1, ih hrest⟩
  | laid => exact h.elim

theorem ending_suffix {values : Values} {m : Markup} {s : List Char}
    (h : m.replaced? values = some s) : m.ending <:+ s := by
  induction m generalizing s with
  | text t =>
    obtain rfl := Option.some.inj h
    exact List.suffix_rfl
  | field before name conversion rest ih =>
    obtain ⟨v, -, h⟩ := Option.bind_eq_some_iff.mp h
    obtain ⟨behind, hbehind, rfl⟩ := Option.map_eq_some_iff.mp h
    exact ((ih hbehind).trans (List.suffix_append _ _)).trans (List.suffix_append _ _)
  | laid => cases h

theorem exists_replaced {values : Values} {m : Markup} (h : m.IsPlain)
    (hbound : ∀ name ∈ m.names, ∃ v, values.lookup name = some v) :
    ∃ s, m.replaced? values = some s := by
  induction m with
  | text t => exact ⟨t, rfl⟩
  | field before name conversion rest ih =>
    obtain ⟨⟨v, hv⟩, hrest⟩ := List.forall_mem_cons.mp hbound
    obtain ⟨behind, hbehind⟩ := ih h.2.2 hrest
    exact ⟨_, by rw [replaced?, hv, hbehind]; rfl⟩
  | laid => exact h.elim

end Markup

def Verbatim (values : Values) (template text : String) : Prop :=
  ∃ m : Markup, m.IsPlain ∧ m.spell = template.toList ∧ m.replaced? values = some text.toList

variable {values : Values}

section Fill

variable {fillLayout : List Char → Except FillError (List Char)}

theorem lookUp_key {name : List Char} (h : isKey name) : lookUp values name =
    match values.lookup (String.ofList name) with
    | none => .error (.unknownName (String.ofList name))
    | some v => .ok (.value v) := by
  simp only [isKey, Bool.and_eq_true, beq_iff_eq] at h
  obtain ⟨⟨-, hhead⟩, hdigit⟩ := h
  have hne : name.isEmpty = false := by
    cases name with
    | nil => cases hdigit
    | cons => rfl
  have hindex : index? name = .ok none := by rw [index?, hdigit, Bool.or_true, if_pos rfl]
  have hfollow : ∀ n m, follow n m [] = .ok m := fun n m => by cases n <;> rfl
  cases hv : values.lookup (String.ofList name) <;>
    simp [lookUp, hhead, hindex, hne, hv, hfollow, Except.mapError, bind, Except.bind]

theorem fillPieces_text {s : List Char} {r : List Piece} :
    fillPieces values fillLayout (.literal s :: r) =
      (fillPieces values fillLayout r).map (s ++ ·) := by
  rw [fillPieces]
  cases fillPieces values fillLayout r <;> rfl

theorem fillPieces_empty {r : List Piece} :
    fillPieces values fillLayout (.literal [] :: r) = fillPieces values fillLayout r := by
  rw [fillPieces_text]
  cases fillPieces values fillLayout r <;> rfl

theorem exists_withText (t : List Char) (ps : List Piece) (s : List Char) :
    ∃ u qs, withText (.literal t :: ps) s = .literal u :: qs := by
  induction s with
  | nil => exact ⟨t, ps, rfl⟩
  | cons c r ih =>
    obtain ⟨u, qs, h⟩ := ih
    rw [withText, h]
    split
    exacts [⟨[c], _, rfl⟩, ⟨c :: u, qs, rfl⟩]

theorem fillPieces_withText (t : List Char) (ps : List Piece) (s : List Char) :
    fillPieces values fillLayout (withText (.literal t :: ps) s) =
      (fillPieces values fillLayout (.literal t :: ps)).map (s ++ ·) := by
  induction s with
  | nil =>
    rw [withText]
    cases fillPieces values fillLayout (.literal t :: ps) <;> rfl
  | cons c r ih =>
    have hcons : fillPieces values fillLayout (withText (.literal t :: ps) (c :: r)) =
        (fillPieces values fillLayout (withText (.literal t :: ps) r)).map (c :: ·) := by
      rw [withText]
      split
      next => exact fillPieces_text
      next =>
        obtain ⟨u, qs, h⟩ := exists_withText t ps r
        rw [h, prepend, fillPieces_text, fillPieces_text]
        cases fillPieces values fillLayout qs <;> rfl
    rw [hcons, ih]
    cases fillPieces values fillLayout (.literal t :: ps) <;> rfl

theorem fillPieces_key {name : List Char} (h : isKey name) (r : List Piece) :
    fillPieces values fillLayout (.field name none [] :: r) =
      match values.lookup (String.ofList name) with
      | none => .error (.unknownName (String.ofList name))
      | some v => v.written.mapError .layout >>= fun shown =>
          (fillPieces values fillLayout r).map (shown.toList ++ ·) := by
  rw [fillPieces, lookUp_key h]
  cases values.lookup (String.ofList name) with
  | none => rfl
  | some v =>
    simp only [bind, Except.bind, convert, List.contains_nil, Bool.false_eq_true, if_false, pure,
      Except.pure, layMember, Value.lay, List.isEmpty_nil, if_true]
    cases v.written with
    | error => rfl
    | ok shown =>
      simp only [Except.mapError]
      cases fillPieces values fillLayout r <;> rfl

theorem fillPieces_eq_ok {m : Markup} (h : m.IsPlain) {s : List Char} :
    fillPieces values fillLayout m.pieces = .ok s ↔
      (∀ name ∈ m.names, ∀ v, values.lookup name = some v → v.IsWritten) ∧
        m.replaced? values = some s := by
  induction m generalizing s with
  | text t =>
    rw [Markup.pieces, fillPieces_withText, fillPieces_empty, fillPieces]
    simp [Markup.names, Markup.replaced?, Except.map]
  | field before name conversion rest ih =>
    obtain ⟨hkey, rfl, hrest⟩ := h
    rw [Markup.pieces, fillPieces_withText, fillPieces_empty, fillPieces_key hkey, Markup.names,
      List.forall_mem_cons, Markup.replaced?]
    cases values.lookup (String.ofList name) with
    | none => simp [Except.map]
    | some v =>
      simp only [Option.some.injEq, forall_eq']
      constructor
      · intro hfill
        obtain ⟨u, hu, rfl⟩ := map_eq_ok.mp hfill
        obtain ⟨shown, hshown, hu⟩ := bind_eq_ok.mp hu
        obtain ⟨behind, hbehind, rfl⟩ := map_eq_ok.mp hu
        obtain ⟨hwritten, hplain⟩ := Value.mapError_written_eq_ok.mp hshown
        obtain ⟨hnames, hreplaced⟩ := (ih hrest).mp hbehind
        refine ⟨⟨hwritten, hnames⟩, ?_⟩
        rw [hreplaced, ← hplain]
        rfl
      · intro hboth
        obtain ⟨⟨hwritten, hnames⟩, hreplaced⟩ := hboth
        obtain ⟨behind, hbehind, rfl⟩ := Option.map_eq_some_iff.mp hreplaced
        have hshown : v.written.mapError FillError.layout = .ok (String.ofList v.plain) :=
          Value.mapError_written_eq_ok.mpr ⟨hwritten, String.toList_ofList.symm⟩
        rw [hshown]
        simp only [bind, Except.bind, (ih hrest).mpr ⟨hnames, hbehind⟩, Except.map,
          String.toList_ofList]
  | laid => exact h.elim

end Fill

/-- A plain template is filled in unless a number that it names has too many digits, and then it
is the template with the values in the places of their names. -/
theorem fill_eq_ok {m : Markup} (h : m.IsPlain) {template text : String}
    (hm : m.spell = template.toList) : fill values template = .ok text ↔
      (∀ name ∈ m.names, ∀ v, values.lookup name = some v → v.IsWritten) ∧
        m.replaced? values = some text.toList := by
  have hfilled : fillPieces values (fillTo values 1) m.pieces = .ok text.toList ↔ _ :=
    fillPieces_eq_ok h
  have hfill : fill values template =
      (fillPieces values (fillTo values 1) m.pieces).map String.ofList := by
    rw [fill, fillTo, ← hm, pieces_spell h.isWellFormed]
    dsimp only
    cases fillPieces values (fillTo values 1) m.pieces <;> rfl
  rw [← hfilled, hfill, map_eq_ok]
  constructor
  · intro hmade
    obtain ⟨s, hs, rfl⟩ := hmade
    rw [hs, String.toList_ofList]
  · exact fun hs => ⟨_, hs, String.ofList_toList⟩

end ChangeImpact.Template
