import ChangeImpact.Proofs.Json.Writing
import ChangeImpact.Proofs.Server.Headers
import ChangeImpact.Source.Limits

/-!
# Framed messages are read back

An `Envelope` is a message as a client may send it: any spelling of an object in UTF-8, and header
lines of which one says how many bytes the spelling has. The frames that the server writes are
envelopes too. Reading takes an envelope off the input byte for byte, so that a row of them is read
back one after the other up to the end of the input. The reader's limits are the only exception:
the length of a line, the digits of a number, and how deep lists and objects lie in one another,
for which the machine has so much room.
-/

namespace ChangeImpact.Server

open Text.Utf8 (Bytes encode)
open Json (Fields AllSpace Spelled Fits IsPlain Dialect)

variable {nesting : Nat}

structure Envelope extends Packet where
  fields : Fields
  left : List Char
  text : List Char
  right : List Char
  spaceLeft : AllSpace (left.map .char)
  spaceRight : AllSpace (right.map .char)
  spelled : Spelled (.object fields) (text.map .char)
  spells : body = encode (left ++ text ++ right)

namespace Envelope

def message (e : Envelope) : Json := .object e.fields

/-- The envelope is within all limits of the reader. -/
def IsWithin (nesting : Nat) (e : Envelope) : Prop :=
  e.IsFramed ∧ (Dialect.lenient nesting).Takes e.message

theorem readBytes_body (e : Envelope) :
    Json.readBytes nesting e.body = .ok e.message ↔ (Dialect.lenient nesting).Takes e.message := by
  rw [e.spells]
  exact Json.readBytes_of_spelled e.spelled e.spaceLeft e.spaceRight

end Envelope

section Reading

/-- Reading gives the messages, and then the end of the input is met. -/
def ReadsBack (nesting : Nat) (bs : Bytes) (messages : List Json) : Prop :=
  Received nesting bs messages [] ∧ readMessages nesting bs = (messages, false)

theorem received_iff (es : List Envelope) :
    Received nesting (es.flatMap fun e => e.bytes) (es.map Envelope.message) [] ↔
      ∀ e ∈ es, e.IsWithin nesting := by
  induction es with
  | nil => simpa using Received.none []
  | cons e r ih =>
    rw [List.flatMap_cons, List.map_cons, List.forall_mem_cons, ← ih]
    constructor
    · intro h
      cases h with
      | next cut read more =>
        rw [e.cutFrame?_append] at cut
        split at cut
        next hframed =>
          obtain ⟨rfl, rfl⟩ := Prod.mk.inj (Option.some.inj cut)
          exact ⟨⟨hframed, e.readBytes_body.mp read⟩, more⟩
        next => cases cut
    · intro h
      obtain ⟨⟨hframed, hfits⟩, hmore⟩ := h
      exact .packet hframed (e.readBytes_body.mpr hfits) hmore

theorem readsBack_iff_received (es : List Envelope) :
    ReadsBack nesting (es.flatMap fun e => e.bytes) (es.map Envelope.message) ↔
      Received nesting (es.flatMap fun e => e.bytes) (es.map Envelope.message) [] := by
  constructor
  · exact And.left
  · intro h
    have hnull : ∀ m ∈ es.map Envelope.message, m ≠ .null :=
      List.forall_mem_map.mpr fun e _ => Json.noConfusion
    refine ⟨h, ?_⟩
    rw [h.readMessages hnull, readMessages, cutFrame?_nil]
    simp

end Reading

section Written

theorem isBlank_digits (n : Nat) : ∀ c ∈ Decimal.digits n, Text.isBlank c = false := by
  have hdigit : ∀ d < 10, Text.isBlank (Nat.digitChar d) = false := by decide
  intro c hc
  obtain ⟨d, hd, rfl⟩ := Text.exists_digitChar n c hc
  exact hdigit d hd

theorem strip_blank_digits (n : Nat) :
    Text.strip (' ' :: Decimal.digits n) = Decimal.digits n := by
  have hdrop : (' ' :: Decimal.digits n).dropWhile Text.isBlank =
      (Decimal.digits n).dropWhile Text.isBlank := by
    rw [List.dropWhile_cons, if_pos (by decide)]
  rw [Text.strip, ← Text.trim_dropWhile, hdrop, Text.trim_dropWhile,
    Text.trim_of_notBlank (isBlank_digits n)]

def writtenLength (n : Nat) : HeaderLine where
  name := "Content-Length".toList
  value := ' ' :: Decimal.digits n
  crlf := true
  noColon := by decide
  oneLine := by
    rw [List.mem_append, List.mem_cons, not_or, not_or]
    refine ⟨by decide, by decide, fun hmem => ?_⟩
    exact absurd (isBlank_digits n _ hmem) (by decide)

theorem chars_object_ne_nil (fields : Fields) : Json.chars .wire 0 (.object fields) ≠ [] := by
  cases fields with
  | nil => rw [Json.chars]; exact List.cons_ne_nil _ _
  | cons f r => rw [Json.chars]; simp

def Packet.written (fields : Fields) : Packet where
  body := encode (Json.chars .wire 0 (.object fields))
  before := []
  length := writtenLength (encode (Json.chars .wire 0 (.object fields))).length
  after := []
  crlf := true
  filled := List.length_pos_iff.mpr (Text.Utf8.encode_ne_nil (chars_object_ne_nil fields))
  named := rfl
  counted := strip_blank_digits _
  others := List.forall_mem_nil _

def Envelope.written (fields : Fields) (plain : IsPlain (.object fields)) : Envelope :=
  { Packet.written fields with
    fields := fields
    left := []
    text := Json.chars .wire 0 (.object fields)
    right := []
    spaceLeft := Json.allSpace_nil
    spaceRight := Json.allSpace_nil
    spelled := Json.spelled_chars .wire plain 0
    spells := congrArg encode (List.append_nil _).symm }

theorem writtenLength_text (n : Nat) : (writtenLength n).text =
    "Content-Length".toList ++ ':' :: (' ' :: Decimal.digits n ++ ['\r']) := rfl

theorem writtenLength_bytes (n : Nat) : (writtenLength n).bytes ++ encode (lineEnd true) =
    encode ("Content-Length: ".toList ++ Decimal.digits n ++ "\r\n\r\n".toList) := by
  have hname : "Content-Length: ".toList = "Content-Length".toList ++ [':', ' '] := rfl
  have hend : "\r\n\r\n".toList = '\r' :: '\n' :: lineEnd true := rfl
  rw [HeaderLine.bytes, writtenLength_text, ← Text.Utf8.encode_append, hname, hend]
  simp only [List.append_assoc, List.cons_append, List.nil_append]

theorem Packet.bytes_written (fields : Fields) :
    (written fields).bytes = frame (.object fields) := by
  have hlines : (written fields).lines.flatMap HeaderLine.bytes =
      (writtenLength (encode (Json.chars .wire 0 (.object fields))).length).bytes :=
    List.flatMap_singleton _ _
  have hcrlf : (written fields).crlf = true := rfl
  rw [bytes, hlines, hcrlf, ← List.append_assoc, writtenLength_bytes, frame, written]

theorem length_encode_le (s : List Char) : (encode s).length ≤ 4 * s.length := by
  induction s with
  | nil => exact Nat.le_refl 0
  | cons c r ih =>
    have hcons : encode (c :: r) = String.utf8EncodeChar c ++ encode r := List.flatMap_cons
    have hc := c.utf8Size_le_four
    rw [hcons, List.length_append, String.length_utf8EncodeChar, List.length_cons]
    omega

theorem isShort_writtenLength {n : Nat} (h : Text.IsReadable n) : (writtenLength n).IsShort := by
  have hread : (Decimal.digits n).length ≤ 4300 := h
  have hname : "Content-Length".toList.length = 14 := rfl
  have htext : (writtenLength n).text.length = (Decimal.digits n).length + 17 := by
    rw [writtenLength_text, List.length_append, hname, List.length_cons, List.length_append,
      List.length_cons, List.length_singleton]
    omega
  have hbytes := length_encode_le (writtenLength n).text
  rw [HeaderLine.IsShort, lineLimit]
  omega

theorem Packet.isFramed_written (fields : Fields) : (written fields).IsFramed ↔
    Text.IsReadable (encode (Json.chars .wire 0 (.object fields))).length := by
  have hlines : (written fields).lines =
      [writtenLength (encode (Json.chars .wire 0 (.object fields))).length] := rfl
  rw [IsFramed, hlines, List.forall_mem_singleton]
  exact and_iff_right_of_imp isShort_writtenLength

theorem Envelope.bytes_written {fields : Fields} (plain : IsPlain (.object fields)) :
    (written fields plain).bytes = frame (.object fields) := Packet.bytes_written fields

theorem Envelope.isWithin_written {fields : Fields} (plain : IsPlain (.object fields)) :
    (written fields plain).IsWithin nesting ↔
      Text.IsReadable (encode (Json.chars .wire 0 (.object fields))).length ∧
        (Dialect.lenient nesting).Takes (.object fields) :=
  and_congr_left' (Packet.isFramed_written fields)

theorem Packet.isFramed_of_isWithin {fields : Fields} {plain : IsPlain (.object fields)}
    (h : (Envelope.written fields plain).IsWithin nesting) : (written fields).IsFramed := h.1

theorem Packet.readBytes_of_isWithin {fields : Fields} {plain : IsPlain (.object fields)}
    (h : (Envelope.written fields plain).IsWithin nesting) :
    Json.readBytes nesting (written fields).body = .ok (.object fields) :=
  (Envelope.written fields plain).readBytes_body.mpr h.2

theorem Envelope.isWithin_of_short {fields : Fields} (plain : IsPlain (.object fields))
    (short : (encode (Json.chars .wire 0 (.object fields))).length < Nat.pow 10 3)
    (fits : (Dialect.lenient nesting).Takes (.object fields)) :
    (written fields plain).IsWithin nesting :=
  (isWithin_written plain).mpr ⟨Text.isReadable_of_lt short (by decide), fits⟩

end Written

section ReadBack

theorem exists_written {objects : List Fields} (plain : ∀ o ∈ objects, IsPlain (.object o)) :
    ∃ es : List Envelope, es.flatMap (fun e => e.bytes) = objects.flatMap (fun o => frame (.object o)) ∧
      es.map Envelope.message = objects.map Json.object ∧
      ((∀ e ∈ es, e.IsWithin nesting) ↔ ∀ o ∈ objects,
        Text.IsReadable (encode (Json.chars .wire 0 (.object o))).length ∧
          (Dialect.lenient nesting).Takes (.object o)) := by
  induction objects with
  | nil => exact ⟨[], rfl, rfl, by simp⟩
  | cons o r ih =>
    obtain ⟨hfirst, hmore⟩ := List.forall_mem_cons.mp plain
    obtain ⟨es, hbytes, hmessages, hwithin⟩ := ih hmore
    refine ⟨.written o hfirst :: es, ?_, ?_, ?_⟩
    · rw [List.flatMap_cons, List.flatMap_cons, Envelope.bytes_written, hbytes]
    · rw [List.map_cons, List.map_cons, hmessages]
      rfl
    · rw [List.forall_mem_cons, List.forall_mem_cons, hwithin, Envelope.isWithin_written]

/-- Envelopes in a row are read back, up to the end of the input, exactly where each is within
the limits of the reader; so are the frames that the server writes for objects. -/
theorem readsBack_iff_isWithin (nesting : Nat) :
    (∀ es : List Envelope, ReadsBack nesting (es.flatMap fun e => e.bytes) (es.map Envelope.message) ↔
      ∀ e ∈ es, e.IsWithin nesting) ∧
    ∀ objects : List Fields, (∀ o ∈ objects, IsPlain (.object o)) →
      (ReadsBack nesting (objects.flatMap fun o => frame (.object o)) (objects.map Json.object) ↔
        ∀ o ∈ objects, Text.IsReadable (encode (Json.chars .wire 0 (.object o))).length ∧
          (Dialect.lenient nesting).Takes (.object o)) := by
  have henvelopes : ∀ es : List Envelope,
      ReadsBack nesting (es.flatMap fun e => e.bytes) (es.map Envelope.message) ↔
        ∀ e ∈ es, e.IsWithin nesting :=
    fun es => (readsBack_iff_received es).trans (received_iff es)
  refine ⟨henvelopes, fun objects plain => ?_⟩
  obtain ⟨es, hbytes, hmessages, hwithin⟩ := exists_written plain
  rw [← hbytes, ← hmessages, henvelopes, hwithin]

def ping : Fields := [("id", .text "1"), ("method", .text "ping")]

theorem isPlain_ping : IsPlain (.object ping) :=
  .object (by decide) (by decide) (List.forall_mem_cons.mpr ⟨.text (by decide),
    List.forall_mem_singleton.mpr (.text (by decide))⟩)

theorem isWithin_ping (hroom : 0 < nesting) :
    (Envelope.written ping isPlain_ping).IsWithin nesting :=
  Envelope.isWithin_of_short _ (by decide +kernel) (Json.fits_object_cons.mpr
    ⟨hroom, List.forall_mem_cons.mpr ⟨.text _, List.forall_mem_singleton.mpr (.text _)⟩⟩)

theorem readsBack_ping : (∀ o ∈ [ping], IsPlain (.object o)) ∧
    ReadsBack 1 (frame (.object ping)) [.object ping] := by
  have hplain : ∀ o ∈ [ping], IsPlain (.object o) := List.forall_mem_singleton.mpr isPlain_ping
  have hread := ((readsBack_iff_isWithin 1).2 [ping] hplain).mpr (List.forall_mem_singleton.mpr
    ((Envelope.isWithin_written isPlain_ping).mp (isWithin_ping (by decide))))
  exact ⟨hplain, by simpa using hread⟩

end ReadBack

section Limits

def nested : Nat → Json
  | 0 => .null
  | n + 1 => .list [nested n]

theorem isPlain_nested (n : Nat) : IsPlain (nested n) := by
  induction n with
  | zero => exact .null
  | succ n ih => exact .list (List.forall_mem_singleton.mpr ih)

theorem fits_nested {d : Dialect} {room n : Nat} : Fits d room (nested n) ↔ n ≤ room := by
  induction n generalizing room with
  | zero => exact iff_of_true .null (Nat.zero_le room)
  | succ n ih =>
    rw [nested, Json.fits_list_cons, List.forall_mem_singleton, ih]
    omega

theorem not_fits_pow {d : Dialect} {room k : Nat} (h : Text.digitLimit ≤ k) :
    ¬Fits d room (.int (Int.pow 10 k)) := by
  intro hfits
  have hpos : 0 < k := Nat.lt_of_lt_of_le (by decide) h
  have habs : (Int.pow 10 k).natAbs = Nat.pow 10 k := Int.natAbs_pow 10 k
  have hlt := (Text.length_digits_le_iff hpos).mp (Nat.le_trans (Json.fits_int.mp hfits) h)
  rw [habs] at hlt
  exact Nat.lt_irrefl _ hlt

def holding (v : Json) : Fields := [("a", v)]

theorem isPlain_holding {v : Json} (h : IsPlain v) : IsPlain (.object (holding v)) :=
  .object (by simp [holding]) (List.forall_mem_singleton.mpr (List.isChain_singleton _))
    (List.forall_mem_singleton.mpr h)

theorem fits_holding {d : Dialect} {room : Nat} {v : Json} :
    Fits d room (.object (holding v)) ↔ 0 < room ∧ Fits d (room - 1) v := by
  rw [holding, Json.fits_object_cons, List.forall_mem_singleton]

def holder (v : Json) (h : IsPlain v) : Envelope := .written (holding v) (isPlain_holding h)

theorem length_le_encode (s : List Char) : s.length ≤ (encode s).length := by
  induction s with
  | nil => exact Nat.le_refl 0
  | cons c r ih =>
    have hcons : encode (c :: r) = String.utf8EncodeChar c ++ encode r := List.flatMap_cons
    have hc := List.length_pos_iff.mpr (String.utf8EncodeChar_ne_nil (c := c))
    rw [hcons, List.length_append, List.length_cons]
    omega

def letters (n : Nat) : HeaderLine where
  name := ['a']
  value := List.replicate n 'b'
  crlf := false
  noColon := by decide
  oneLine := by simp

theorem length_text_letters (n : Nat) : (letters n).text.length = n + 2 := by
  simp [HeaderLine.text, letters, carriageReturn]

theorem not_isShort_letters {n : Nat} (h : lineLimit ≤ n) : ¬(letters n).IsShort := by
  have hlength := length_text_letters n
  have hbytes := length_le_encode (letters n).text
  rw [HeaderLine.IsShort]
  omega

theorem key_letters (n : Nat) : (letters n).key = "a" :=
  key_of_toLower (by decide) rfl

def pingBehind (l : HeaderLine) (h : l.key ≠ lengthName) : Envelope :=
  { Envelope.written ping isPlain_ping with
    before := [l]
    others := List.forall_mem_singleton.mpr h }

theorem key_letters_ne (n : Nat) : (letters n).key ≠ lengthName := by
  rw [key_letters]
  decide

def pairAlone : Json := .text ⟨[.surrogate 0x3D, .surrogate 0x600]⟩

def pairJoined : Json := .text "😀"

theorem chars_pairAlone : Json.chars .wire 0 (.object (holding pairAlone)) =
    Json.chars .wire 0 (.object (holding pairJoined)) := by decide +kernel

theorem frame_congr {m m' : Json} (h : Json.chars .wire 0 m = Json.chars .wire 0 m') :
    frame m = frame m' := by
  rw [frame, h, ← frame]

theorem isPlain_pairJoined : IsPlain pairJoined := .text (by decide)

theorem isWithin_pairJoined (hroom : 0 < nesting) :
    (holder pairJoined isPlain_pairJoined).IsWithin nesting :=
  Envelope.isWithin_of_short _ (by decide +kernel) (fits_holding.mpr ⟨hroom, .text _⟩)

theorem not_readsBack_of_not_isWithin {e : Envelope} (h : ¬e.IsWithin nesting) :
    ¬ReadsBack nesting e.bytes [e.message] := by
  have hreceived : Received nesting ([e].flatMap fun e => e.bytes) [e.message] [] ↔
      ∀ e' ∈ [e], e'.IsWithin nesting := received_iff [e]
  rw [List.flatMap_singleton, List.forall_mem_singleton] at hreceived
  exact fun hback => h (hreceived.mp hback.1)

theorem not_readsBack_pairAlone (hroom : 0 < nesting) :
    ¬ReadsBack nesting (frame (.object (holding pairAlone))) [.object (holding pairAlone)] := by
  intro hback
  have hframe : frame (.object (holding pairAlone)) =
      (holder pairJoined isPlain_pairJoined).bytes :=
    (frame_congr chars_pairAlone).trans (Envelope.bytes_written _).symm
  have hread := (readsBack_iff_received [holder pairJoined isPlain_pairJoined]).mpr
    ((received_iff _).mpr (List.forall_mem_singleton.mpr (isWithin_pairJoined hroom)))
  rw [List.flatMap_singleton, ← hframe] at hread
  have hsame := hread.2.symm.trans hback.2
  cases hsame

/-- On no machine read back are a frame with a high surrogate before a low one, a number of 4301
digits, an object with as many lists in it as it has room for, and a message behind a header line
that is too long. -/
theorem not_readsBack :
    (¬∃ m : Machine, ReadsBack m.nesting (frame (.object (holding pairAlone)))
      [.object (holding pairAlone)]) ∧
    (¬∃ m : Machine, ReadsBack m.nesting (holder (.int (Int.pow 10 Text.digitLimit)) (.int _)).bytes
      [.object (holding (.int (Int.pow 10 Text.digitLimit)))]) ∧
    (¬∃ m : Machine, ReadsBack m.nesting (holder (nested m.nesting) (isPlain_nested _)).bytes
      [.object (holding (nested m.nesting))]) ∧
    ¬∃ m : Machine, ReadsBack m.nesting (pingBehind (letters lineLimit) (key_letters_ne _)).bytes
      [.object ping] := by
  refine ⟨?_, ?_, ?_, ?_⟩ <;> rintro ⟨m, hback⟩
  · exact not_readsBack_pairAlone m.nesting_pos hback
  · refine not_readsBack_of_not_isWithin (e := holder _ _) (fun hwithin => ?_) hback
    exact not_fits_pow (Nat.le_refl _) (fits_holding.mp hwithin.2).2
  · refine not_readsBack_of_not_isWithin (e := holder _ _) (fun hwithin => ?_) hback
    have hle : m.nesting ≤ m.nesting - 1 := fits_nested.mp (fits_holding.mp hwithin.2).2
    exact absurd (Nat.sub_lt m.nesting_pos Nat.one_pos) (Nat.not_lt.mpr hle)
  · refine not_readsBack_of_not_isWithin (e := pingBehind _ _) (fun hwithin => ?_) hback
    exact not_isShort_letters (Nat.le_refl _) (hwithin.1.1 _ List.mem_cons_self)

end Limits

end ChangeImpact.Server
