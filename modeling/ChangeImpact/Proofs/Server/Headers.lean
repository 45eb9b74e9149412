import ChangeImpact.Proofs.Text.Integer
import ChangeImpact.Proofs.Text.Strip
import ChangeImpact.Proofs.Text.Utf8
import ChangeImpact.Server.Frame

/-!
# Reading header lines and packets

A header line is a name and a value with a colon between them, and it ends in a line feed or in a
carriage return and a line feed. It is read as its name in lower case and its value, both without
blanks around them, unless it is too long. The header for the content length may be written in
any letter case. A packet is what such lines announce, and it is taken off the input byte for byte.
-/

namespace ChangeImpact.Server

open Text.Utf8 (Bytes encode)

def lineEnd (crlf : Bool) : List Char := if crlf then ['\r', '\n'] else ['\n']

def carriageReturn (crlf : Bool) : List Char := if crlf then ['\r'] else []

theorem lineEnd_eq (crlf : Bool) : lineEnd crlf = carriageReturn crlf ++ ['\n'] := by
  cases crlf <;> rfl

theorem isBlank_lineEnd (crlf : Bool) : ∀ c ∈ lineEnd crlf, Text.isBlank c = true :=
  List.all_eq_true.mp (by cases crlf <;> decide)

theorem newline_not_mem (crlf : Bool) : '\n' ∉ carriageReturn crlf := by
  cases crlf <;> decide

structure HeaderLine where
  name : List Char
  value : List Char
  crlf : Bool
  noColon : ':' ∉ name
  oneLine : '\n' ∉ name ++ value

namespace HeaderLine

def text (l : HeaderLine) : List Char := l.name ++ ':' :: (l.value ++ carriageReturn l.crlf)

def bytes (l : HeaderLine) : Bytes := encode (l.text ++ ['\n'])

def key (l : HeaderLine) : String := Text.lower (String.ofList (Text.strip l.name))

def pair (l : HeaderLine) : String × String := (l.key, String.ofList (Text.strip l.value))

def IsShort (l : HeaderLine) : Prop := (encode l.text).length ≤ lineLimit

instance (l : HeaderLine) : Decidable l.IsShort := inferInstanceAs (Decidable (_ ≤ _))

theorem newline_not_mem_text (l : HeaderLine) : '\n' ∉ l.text := by
  have hone := l.oneLine
  rw [List.mem_append, not_or] at hone
  simp [text, hone.1, hone.2, newline_not_mem]

theorem header_text (l : HeaderLine) :
    Text.strip (l.text ++ ['\n']) ≠ [] ∧ header (Text.strip (l.text ++ ['\n'])) = l.pair := by
  have hcolon : Text.isBlank ':' = false := by decide
  have hshape : l.text ++ ['\n'] = l.name ++ ':' :: (l.value ++ lineEnd l.crlf) := by
    rw [lineEnd_eq, text, List.append_assoc, List.cons_append, List.append_assoc]
  have hstrip : Text.strip (l.text ++ ['\n']) = l.name.dropWhile Text.isBlank ++
      ':' :: Text.trimRight Text.isBlank (l.value ++ lineEnd l.crlf) := by
    rw [hshape, Text.strip, Text.trim_append_cons hcolon]
  have hname : ':' ∉ l.name.dropWhile Text.isBlank := fun hmem =>
    l.noColon ((List.dropWhile_suffix _).subset hmem)
  rw [hstrip, header, Text.cut?_append_cons hname]
  refine ⟨by simp, ?_⟩
  simp only [Option.getD_some, Text.strip, Text.trim_dropWhile, Text.trim_trimRight,
    Text.trim_append (isBlank_lineEnd l.crlf)]
  rfl

end HeaderLine

section Lines

theorem cutLine_append_lineFeed {s : Bytes} (h : lineFeed ∉ s) (rest : Bytes) :
    cutLine (s ++ lineFeed :: rest) = (s ++ [lineFeed], rest) := by
  induction s with
  | nil => rfl
  | cons b r ih =>
    rw [List.mem_cons, not_or] at h
    rw [List.cons_append, cutLine, if_neg (Ne.symm h.1), ih h.2]
    rfl

theorem lineFeed_not_mem_encode {s : List Char} (h : '\n' ∉ s) : lineFeed ∉ encode s := fun hmem =>
  h (Text.Utf8.mem_of_mem_encode (by decide) hmem)

theorem encode_newline (s : List Char) : encode (s ++ ['\n']) = encode s ++ [lineFeed] := by
  rw [Text.Utf8.encode_append]
  rfl

theorem lineText?_encode {s : List Char} (h : '\n' ∉ s) : lineText? (encode (s ++ ['\n'])) =
    if (encode s).length ≤ lineLimit then some (Text.strip (s ++ ['\n'])) else none := by
  have htake : (encode s ++ [lineFeed]).takeWhile (· != lineFeed) = encode s := by
    have hall : ∀ b ∈ encode s, (b != lineFeed) = true := fun b hb =>
      bne_iff_ne.mpr fun heq => lineFeed_not_mem_encode h (heq ▸ hb)
    rw [List.takeWhile_append_of_pos hall]
    simp
  rw [lineText?, Text.Utf8.decode?_encode, encode_newline, htake, Option.map_some]
  by_cases hshort : (encode s).length ≤ lineLimit
  · rw [if_pos hshort, if_neg (Nat.not_lt.mpr hshort)]
  · rw [if_neg hshort, if_pos (Nat.lt_of_not_le hshort)]

theorem readHeaders_encode {s : List Char} (h : '\n' ∉ s) (rest : Bytes) :
    readHeaders (encode (s ++ ['\n']) ++ rest) =
      if (encode s).length ≤ lineLimit then
        if Text.strip (s ++ ['\n']) = [] then some ([], rest)
        else (readHeaders rest).map fun (hs, r) => (header (Text.strip (s ++ ['\n'])) :: hs, r)
      else none := by
  have hcut : cutLine (encode (s ++ ['\n']) ++ rest) = (encode (s ++ ['\n']), rest) := by
    rw [encode_newline, List.append_assoc, List.singleton_append,
      cutLine_append_lineFeed (lineFeed_not_mem_encode h)]
  have hline := lineText?_encode h
  obtain ⟨b, r, hbytes⟩ : ∃ b r, encode (s ++ ['\n']) ++ rest = b :: r := by
    refine List.exists_cons_of_ne_nil fun hnil => ?_
    rw [encode_newline] at hnil
    simp at hnil
  rw [hbytes] at hcut ⊢
  rw [readHeaders, hcut]
  simp only [hline]
  by_cases hshort : (encode s).length ≤ lineLimit
  · rw [if_pos hshort, if_pos hshort]
    cases Text.strip (s ++ ['\n']) with
    | nil => rfl
    | cons c t => simp
  · rw [if_neg hshort, if_neg hshort]

theorem readHeaders_line (l : HeaderLine) (rest : Bytes) :
    readHeaders (l.bytes ++ rest) =
      if l.IsShort then (readHeaders rest).map fun (hs, r) => (l.pair :: hs, r) else none := by
  obtain ⟨hne, hpair⟩ := l.header_text
  rw [HeaderLine.bytes, readHeaders_encode l.newline_not_mem_text, if_neg hne, hpair]
  rfl

theorem readHeaders_blank (crlf : Bool) (rest : Bytes) :
    readHeaders (encode (lineEnd crlf) ++ rest) = some ([], rest) := by
  have hshort : (encode (carriageReturn crlf)).length ≤ lineLimit := by cases crlf <;> decide
  have hblank : Text.strip (carriageReturn crlf ++ ['\n']) = [] := by
    rw [← lineEnd_eq]
    exact Text.trim_of_all (isBlank_lineEnd crlf)
  rw [lineEnd_eq, readHeaders_encode (newline_not_mem crlf), if_pos hshort, if_pos hblank]

theorem readHeaders_lines (ls : List HeaderLine) (crlf : Bool) (rest : Bytes) :
    readHeaders (ls.flatMap HeaderLine.bytes ++ (encode (lineEnd crlf) ++ rest)) =
      if ∀ l ∈ ls, l.IsShort then some (ls.map HeaderLine.pair, rest) else none := by
  induction ls with
  | nil => simp [readHeaders_blank]
  | cons l r ih =>
    rw [List.flatMap_cons, List.append_assoc, readHeaders_line, ih]
    simp only [List.forall_mem_cons]
    by_cases hl : l.IsShort <;> by_cases hr : ∀ l ∈ r, l.IsShort <;> simp [hl, hr]

end Lines

section LetterCase

theorem toLower_eq_self_or (c : Char) :
    c.toLower = c ∨ c.toNat < 0x80 ∧ Text.isBlank c = false := by
  delta Char.toLower
  split
  next h =>
    have hlow : 65 ≤ c.toNat := h.1
    have hhigh : c.toNat ≤ 90 := h.2
    refine .inr ⟨by omega, ?_⟩
    simp [Text.isBlank]
    omega
  next => exact .inl rfl

theorem key_of_toLower {l : HeaderLine} {name : String}
    (hname : name.toList.all fun c => c.toNat < 0x80 && !Text.isBlank c)
    (h : l.name.map Char.toLower = name.toList) : l.key = name := by
  have hplain : ∀ c ∈ l.name, c.toNat < 0x80 ∧ Text.isBlank c = false := by
    intro c hc
    rcases toLower_eq_self_or c with heq | hletter
    · have hmem : c.toLower ∈ l.name.map Char.toLower := List.mem_map_of_mem hc
      rw [heq, h] at hmem
      simpa using List.all_eq_true.mp hname c hmem
    · exact hletter
  have hstrip : Text.strip l.name = l.name := Text.trim_of_notBlank fun c hc => (hplain c hc).2
  have hascii : (String.ofList l.name).toList.all (·.toNat < 128) = true := by
    rw [String.toList_ofList, List.all_eq_true]
    intro c hc
    exact decide_eq_true (hplain c hc).1
  have hlower : (String.ofList l.name).toLower = (String.ofList l.name).map Char.toLower := rfl
  rw [HeaderLine.key, hstrip, Text.lower, if_pos hascii, hlower, String.map_eq_internal,
    String.toList_ofList, h, String.ofList_toList]

def lengthName : String := "content-length"

theorem key_of_lengthName {l : HeaderLine} (h : l.name.map Char.toLower = lengthName.toList) :
    l.key = lengthName := key_of_toLower (by decide) h

end LetterCase

section ContentLength

theorem last?_eq {before after : List HeaderLine} {l : HeaderLine} {name : String}
    (hkey : l.key = name) (hothers : ∀ m ∈ before ++ after, m.key ≠ name) :
    Headers.last? ((before ++ l :: after).map HeaderLine.pair) name =
      some (String.ofList (Text.strip l.value)) := by
  have hnone : (after.map HeaderLine.pair).reverse.lookup name = none := by
    rw [List.lookup_eq_none_iff]
    intro kv hkv
    obtain ⟨m, hm, rfl⟩ := List.mem_map.mp (List.mem_reverse.mp hkv)
    exact bne_iff_ne.mpr (hothers m (List.mem_append_right _ hm)).symm
  rw [Headers.last?, List.map_append, List.map_cons, List.reverse_append, List.reverse_cons,
    List.lookup_append, List.lookup_append, hnone]
  simp [HeaderLine.pair, hkey]

theorem contentLength?_eq {before after : List HeaderLine} {l : HeaderLine} {n : Nat}
    (hname : l.name.map Char.toLower = lengthName.toList)
    (hothers : ∀ m ∈ before ++ after, m.key ≠ lengthName)
    (hvalue : Text.strip l.value = Decimal.digits n) (hn : 0 < n) :
    contentLength? ((before ++ l :: after).map HeaderLine.pair) =
      if Text.IsReadable n then some n else none := by
  have hlast := last?_eq (key_of_lengthName hname) hothers
  have hread := Text.readInteger_ofNat n
  rw [Decimal.ofNat, ← hvalue] at hread
  rw [contentLength?, ← lengthName, hlast, Option.getD_some, hread]
  by_cases h : Text.IsReadable n
  · simp [h, hn]
  · simp [h]

end ContentLength

/-- Header lines, one of which says how many bytes follow the blank line, and those bytes. -/
structure Packet where
  body : Bytes
  before : List HeaderLine
  length : HeaderLine
  after : List HeaderLine
  crlf : Bool
  filled : 0 < body.length
  named : length.name.map Char.toLower = lengthName.toList
  counted : Text.strip length.value = Decimal.digits body.length
  others : ∀ l ∈ before ++ after, l.key ≠ lengthName

namespace Packet

def lines (p : Packet) : List HeaderLine := p.before ++ p.length :: p.after

def bytes (p : Packet) : Bytes :=
  p.lines.flatMap HeaderLine.bytes ++ (encode (lineEnd p.crlf) ++ p.body)

/-- The lines are short enough, and the content length has few enough digits. -/
def IsFramed (p : Packet) : Prop :=
  (∀ l ∈ p.lines, l.IsShort) ∧ Text.IsReadable p.body.length

instance (p : Packet) : Decidable p.IsFramed := inferInstanceAs (Decidable (_ ∧ _))

theorem readHeaders_append (p : Packet) (rest : Bytes) : readHeaders (p.bytes ++ rest) =
    if ∀ l ∈ p.lines, l.IsShort then some (p.lines.map HeaderLine.pair, p.body ++ rest)
    else none := by
  rw [bytes, List.append_assoc, List.append_assoc, readHeaders_lines]

theorem contentLength?_lines (p : Packet) : contentLength? (p.lines.map HeaderLine.pair) =
    if Text.IsReadable p.body.length then some p.body.length else none :=
  contentLength?_eq p.named p.others p.counted p.filled

/-- A packet is taken off the input whole, and what follows it is left as it is. -/
theorem cutFrame?_append (p : Packet) (rest : Bytes) :
    cutFrame? (p.bytes ++ rest) = if p.IsFramed then some (p.body, rest) else none := by
  have htake : (p.body ++ rest).take p.body.length = p.body := List.take_left' rfl
  have hdrop : (p.body ++ rest).drop p.body.length = rest := List.drop_left' rfl
  rw [cutFrame?, readHeaders_append]
  by_cases hshort : ∀ l ∈ p.lines, l.IsShort
  · rw [if_pos hshort, Option.bind_eq_bind, Option.bind_some]
    simp only [contentLength?_lines]
    by_cases hread : Text.IsReadable p.body.length
    · have hframed : p.IsFramed := ⟨hshort, hread⟩
      rw [if_pos hread, if_pos hframed]
      simp [htake, hdrop]
    · have hframed : ¬p.IsFramed := fun h => hread h.2
      rw [if_neg hread, if_neg hframed]
      rfl
  · have hframed : ¬p.IsFramed := fun h => hshort h.1
    rw [if_neg hshort, if_neg hframed]
    rfl

end Packet

section Messages

inductive Received (nesting : Nat) : Bytes → List Json → Bytes → Prop
  | none (bs : Bytes) : Received nesting bs [] bs
  | next {bs body rest stop : Bytes} {message : Json} {messages : List Json}
      (cut : cutFrame? bs = some (body, rest)) (read : Json.readBytes nesting body = .ok message)
      (more : Received nesting rest messages stop) :
      Received nesting bs (message :: messages) stop

variable {nesting : Nat}

theorem cutFrame?_nil : cutFrame? [] = none := by
  rw [cutFrame?, readHeaders]
  rfl

theorem readMessages_nil : readMessages nesting [] = ([], false) := by
  rw [readMessages, cutFrame?_nil]

theorem readMessages_next {bs body rest : Bytes} {message : Json}
    (cut : cutFrame? bs = some (body, rest)) (read : Json.readBytes nesting body = .ok message)
    (hnull : message ≠ .null) : readMessages nesting bs =
      (message :: (readMessages nesting rest).1, (readMessages nesting rest).2) := by
  rw [readMessages.eq_def]
  split
  next heq => cases heq.symm.trans cut
  next heq =>
    obtain ⟨rfl, rfl⟩ := Prod.mk.inj (Option.some.inj (heq.symm.trans cut))
    split
    next heq' => exact absurd (Except.ok.inj (read.symm.trans heq')) hnull
    next heq' =>
      obtain rfl := Except.ok.inj (read.symm.trans heq')
      rfl
    next heq' => cases read.symm.trans heq'

theorem Received.readMessages {bs stop : Bytes} {messages : List Json}
    (h : Received nesting bs messages stop) (hnull : ∀ m ∈ messages, m ≠ .null) :
    Server.readMessages nesting bs = (messages ++ (Server.readMessages nesting stop).1,
      (Server.readMessages nesting stop).2) := by
  induction h with
  | none bs => rfl
  | next cut read more ih =>
    obtain ⟨hfirst, hmore⟩ := List.forall_mem_cons.mp hnull
    rw [readMessages_next cut read hfirst, ih hmore]
    rfl

theorem Received.packet {p : Packet} {bs stop : Bytes} {message : Json} {messages : List Json}
    (framed : p.IsFramed) (read : Json.readBytes nesting p.body = .ok message)
    (more : Received nesting bs messages stop) :
    Received nesting (p.bytes ++ bs) (message :: messages) stop := by
  have cut : cutFrame? (p.bytes ++ bs) = some (p.body, bs) := by
    rw [p.cutFrame?_append, if_pos framed]
  exact .next cut read more

end Messages

end ChangeImpact.Server
