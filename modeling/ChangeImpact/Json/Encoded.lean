import ChangeImpact.Json.Reader
import ChangeImpact.Text.Utf8

/-!
# JSON in bytes

The encoding of a JSON text is told by its first bytes: by a byte order mark, or by where the
zero bytes of its first two ASCII characters stand. Every encoding lets surrogates through, and
only in 16-bit units a high and a low one in a row make a character.
-/

namespace ChangeImpact.Json

open Text.Utf8 (Bytes)

inductive Encoding where
  | utf8
  | utf16 (bigEndian : Bool)
  | utf32 (bigEndian : Bool)
  deriving Repr, DecidableEq

namespace Encoding

def ofMark? : Bytes → Option (Encoding × Bytes)
  | 0x00 :: 0x00 :: 0xFE :: 0xFF :: r => some (.utf32 true, r)
  | 0xFF :: 0xFE :: 0x00 :: 0x00 :: r => some (.utf32 false, r)
  | 0xFE :: 0xFF :: r => some (.utf16 true, r)
  | 0xFF :: 0xFE :: r => some (.utf16 false, r)
  | 0xEF :: 0xBB :: 0xBF :: r => some (.utf8, r)
  | _ => none

def ofZeros : Bytes → Encoding
  | a :: b :: c :: d :: _ =>
    if a = 0 then if b = 0 then .utf32 true else .utf16 true
    else if b = 0 then if c = 0 ∧ d = 0 then .utf32 false else .utf16 false
    else .utf8
  | [a, b] => if a = 0 then .utf16 true else if b = 0 then .utf16 false else .utf8
  | _ => .utf8

def detect (bs : Bytes) : Encoding × Bytes := (ofMark? bs).getD (ofZeros bs, bs)

def units? (bigEndian : Bool) : Bytes → Option (List Nat)
  | [] => some []
  | [_] => none
  | a :: b :: r =>
    (units? bigEndian r).map fun us =>
      (if bigEndian then a.toNat * 256 + b.toNat else b.toNat * 256 + a.toNat) :: us

def pair : List Nat → List CodePoint
  | [] => []
  | [u] => [.ofNat u]
  | u :: v :: r =>
    if isHigh u && isLow v then joined u v :: pair r else .ofNat u :: pair (v :: r)

def wide? (bigEndian : Bool) : List Nat → Option (List CodePoint)
  | [] => some []
  | [_] => none
  | a :: b :: r =>
    let n := if bigEndian then a * 65536 + b else b * 65536 + a
    if n < 0x110000 then (wide? bigEndian r).map (.ofNat n :: ·) else none

def surrogate? : Bytes → Option CodePoint
  | 0xED :: b :: c :: _ =>
    if 0xA0 ≤ b ∧ b ≤ 0xBF ∧ 0x80 ≤ c ∧ c ≤ 0xBF then
      some (.ofNat (0xD000 + (b.toNat - 0x80) * 64 + (c.toNat - 0x80)))
    else none
  | _ => none

/-- Code points of UTF-8 in which surrogates are spelled like other characters. `taken` holds
the bytes since the last surrogate, the last one first, and `skip` bytes belong to it. -/
def ofUtf8? (taken : Bytes) (skip : Nat) : Bytes → Option (List CodePoint)
  | [] => (Text.Utf8.decode? taken.reverse).map fun cs => cs.map .char
  | b :: r =>
    match skip, surrogate? (b :: r) with
    | k + 1, _ => ofUtf8? taken k r
    | 0, some p => do
      let before ← Text.Utf8.decode? taken.reverse
      let rest ← ofUtf8? [] 2 r
      pure (before.map CodePoint.char ++ p :: rest)
    | 0, none => ofUtf8? (b :: taken) 0 r

def decode? : Encoding → Bytes → Option LooseText
  | .utf8, bs => (ofUtf8? [] 0 bs).map LooseText.mk
  | .utf16 bigEndian, bs => (units? bigEndian bs).map fun us => ⟨pair us⟩
  | .utf32 bigEndian, bs => ((units? bigEndian bs).bind (wide? bigEndian)).map LooseText.mk

end Encoding

inductive BytesError where
  | undecodable
  | unreadable (e : ReadError)
  deriving Repr, DecidableEq

def readBytes (nesting : Nat) (bs : Bytes) : Except BytesError Json :=
  let (encoding, rest) := Encoding.detect bs
  match encoding.decode? rest with
  | some s => (readLoose (.lenient nesting) s).mapError .unreadable
  | none => .error .undecodable

end ChangeImpact.Json
