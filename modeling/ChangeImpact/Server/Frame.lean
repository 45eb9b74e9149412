import ChangeImpact.Json.Encoded
import ChangeImpact.Json.Writer
import ChangeImpact.Text.LowerCase

/-!
# Frames

A message travels as a frame: header lines, an empty line, and as many bytes of JSON as the
header for the content length says. Names of headers are read in any letter case, and of
several headers with one name the last counts. Reading stops at the end of the input and at
the first frame that is malformed.
-/

namespace ChangeImpact.Server

open Text.Utf8 (Bytes)

def lineFeed : UInt8 := 10

def lineLimit : Nat := 65536

def cutLine : Bytes → Bytes × Bytes
  | [] => ([], [])
  | b :: r =>
    if b = lineFeed then ([b], r)
    else
      let (line, rest) := cutLine r
      (b :: line, rest)

theorem cutLine_append (bs : Bytes) : (cutLine bs).1 ++ (cutLine bs).2 = bs := by
  induction bs with
  | nil => rfl
  | cons b r ih => by_cases h : b = lineFeed <;> simp [cutLine, h, ih]

theorem cutLine_shorter (b : UInt8) (r : Bytes) :
    (cutLine (b :: r)).2.length < (b :: r).length := by
  have h := congrArg List.length (cutLine_append r)
  by_cases hb : b = lineFeed
  · simp [cutLine, hb]
  · simp only [cutLine, hb, if_false, List.length_append, List.length_cons] at *
    omega

abbrev Headers := List (String × String)

def header (line : List Char) : String × String :=
  let (name, value) := (Text.cut? ':' line).getD (line, [])
  (Text.lower (String.ofList (Text.strip name)), String.ofList (Text.strip value))

def lineText? (line : Bytes) : Option (List Char) :=
  if lineLimit < (line.takeWhile (· != lineFeed)).length then none
  else (Text.Utf8.decode? line).map Text.strip

def readHeaders (bs : Bytes) : Option (Headers × Bytes) :=
  match bs with
  | [] => none
  | b :: r =>
    match lineText? (cutLine (b :: r)).1 with
    | none => none
    | some [] => some ([], (cutLine (b :: r)).2)
    | some text =>
      (readHeaders (cutLine (b :: r)).2).map fun (hs, rest) => (header text :: hs, rest)
termination_by bs.length
decreasing_by exact cutLine_shorter b r

def Headers.last? (hs : Headers) (name : String) : Option String := hs.reverse.lookup name

def contentLength? (hs : Headers) : Option Nat :=
  match Text.readInteger ((hs.last? "content-length").getD "0") with
  | .ok n => if 0 < n then some n.toNat else none
  | .error _ => none

def cutFrame? (bs : Bytes) : Option (Bytes × Bytes) := do
  let (headers, rest) ← readHeaders bs
  let n ← contentLength? headers
  if n ≤ rest.length then some (rest.take n, rest.drop n) else none

theorem readHeaders_length {bs : Bytes} {hs : Headers} {rest : Bytes}
    (h : readHeaders bs = some (hs, rest)) : rest.length < bs.length := by
  fun_induction readHeaders bs generalizing hs with
  | case1 => simp at h
  | case2 => simp at h
  | case3 b r =>
    simp only [Option.some.injEq, Prod.mk.injEq] at h
    exact h.2 ▸ cutLine_shorter b r
  | case4 b r text _ _ ih =>
    obtain ⟨⟨hs', rest'⟩, h', e⟩ := Option.map_eq_some_iff.1 h
    simp only [Prod.mk.injEq] at e
    exact Nat.lt_trans (ih (e.2 ▸ h')) (cutLine_shorter b r)

theorem cutFrame?_length {bs body rest : Bytes} (h : cutFrame? bs = some (body, rest)) :
    rest.length < bs.length := by
  simp only [cutFrame?, Option.bind_eq_bind, Option.bind_eq_some_iff, Prod.exists] at h
  obtain ⟨hs, r, hr, n, _, e⟩ := h
  have := readHeaders_length hr
  split at e <;> simp at e
  rw [← e.2, List.length_drop]
  omega

/-- The messages of an input, up to its end, to the first frame that is malformed, or to a
message that is null; and whether the reading stops at a message that is nested too deep. -/
def readMessages (nesting : Nat) (bs : Bytes) : List Json × Bool :=
  match _h : cutFrame? bs with
  | none => ([], false)
  | some (body, rest) =>
    match Json.readBytes nesting body with
    | .ok .null => ([], false)
    | .ok message =>
      let (messages, tooDeep) := readMessages nesting rest
      (message :: messages, tooDeep)
    | .error e => ([], e = .unreadable .tooDeep)
termination_by bs.length
decreasing_by exact cutFrame?_length _h

def frame (message : Json) : Bytes :=
  let body := Text.Utf8.encode (Json.chars .wire 0 message)
  Text.Utf8.encode
    ("Content-Length: ".toList ++ Decimal.digits body.length ++ "\r\n\r\n".toList) ++ body

end ChangeImpact.Server
