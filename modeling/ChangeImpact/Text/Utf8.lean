import ChangeImpact.Decimal.Digits
import ChangeImpact.Text.Quoted

/-!
# UTF-8

Bytes are read one at a time. A sequence that breaks off, or whose next byte cannot continue
it, counts as one invalid part, and the byte that broke it starts afresh; so each maximal
invalid part is reported once. The lenient reading puts U+FFFD for each, the strict one fails.
-/

namespace ChangeImpact.Text.Utf8

abbrev Bytes := List UInt8

/-- A sequence that waits for `missing` more bytes, the next of them between `low` and
`high`; `value` holds the bits so far. -/
structure Pending where
  missing : Nat
  low : UInt8
  high : UInt8
  value : Nat

def start (b : UInt8) : List (Option Char) × Option Pending :=
  let n := b.toNat
  if n < 0x80 then ([some (Char.ofNat n)], none)
  else if n < 0xC2 then ([none], none)
  else if n < 0xE0 then ([], some ⟨1, 0x80, 0xBF, n - 0xC0⟩)
  else if n < 0xF0 then
    ([], some ⟨2, if n = 0xE0 then 0xA0 else 0x80, if n = 0xED then 0x9F else 0xBF, n - 0xE0⟩)
  else if n < 0xF5 then
    ([], some ⟨3, if n = 0xF0 then 0x90 else 0x80, if n = 0xF4 then 0x8F else 0xBF, n - 0xF0⟩)
  else ([none], none)

def step : Option Pending → UInt8 → List (Option Char) × Option Pending
  | none, b => start b
  | some p, b =>
    if p.low ≤ b ∧ b ≤ p.high then
      let value := p.value * 64 + (b.toNat - 0x80)
      if p.missing ≤ 1 then ([some (Char.ofNat value)], none)
      else ([], some ⟨p.missing - 1, 0x80, 0xBF, value⟩)
    else
      let (out, next) := start b
      (none :: out, next)

def scan : Option Pending → Bytes → List (Option Char)
  | none, [] => []
  | some _, [] => [none]
  | s, b :: r => (step s b).1 ++ scan (step s b).2 r

def replacement : Char := '\uFFFD'

def decodeLossy (bs : Bytes) : List Char :=
  (scan none bs).map (·.getD replacement)

def decode? (bs : Bytes) : Option (List Char) :=
  (scan none bs).mapM id

/-- Where the first invalid part begins, how many bytes it takes, and what is wrong with it.
The sequence that is being read began at `place` and has `size` bytes so far. -/
def faultFrom (place size : Nat) : Option Pending → Bytes → Option (Nat × Nat × String)
  | none, [] => none
  | some _, [] => some (place, size, "unexpected end of data")
  | none, b :: r =>
    match start b with
    | ([some _], _) => faultFrom (place + 1) 0 none r
    | ([], some p) => faultFrom place 1 (some p) r
    | _ => some (place, 1, "invalid start byte")
  | some p, b :: r =>
    match step (some p) b with
    | ([some _], none) => faultFrom (place + size + 1) 0 none r
    | ([], some q) => faultFrom place (size + 1) (some q) r
    | _ => some (place, size, "invalid continuation byte")

def faultMessage (bs : Bytes) : String :=
  match faultFrom 0 0 none bs with
  | none => ""
  | some (place, size, reason) =>
    "'utf-8' codec can't decode " ++
      (if size = 1 then
        "byte 0x" ++ String.ofList (Quoted.hex 2 (bs.getD place 0).toNat) ++ " in position " ++
          Decimal.ofNat place
      else
        "bytes in position " ++ Decimal.ofNat place ++ "-" ++ Decimal.ofNat (place + size - 1)) ++
      ": " ++ reason

def encode (s : List Char) : Bytes :=
  s.flatMap String.utf8EncodeChar

end ChangeImpact.Text.Utf8
