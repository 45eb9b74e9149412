/-!
# Binary floating point of double precision

A finite number is `± mantissa * 2 ^ exponent` with `mantissa < 2 ^ 53` and
`-1074 ≤ exponent`, where the mantissa has its full 53 bits unless the exponent is the least.
Every operation is exact on fractions and then rounds once, to the nearest number, ties to the
even mantissa.
-/

namespace ChangeImpact

inductive Binary64 where
  | finite (negative : Bool) (mantissa : Nat) (exponent : Int)
  | infinite (negative : Bool)
  | notANumber
  deriving Repr, DecidableEq

namespace Binary64

def leastExponent : Int := -1074
def greatestExponent : Int := 971

def zero : Binary64 := .finite false 0 leastExponent

def divToEven (p q : Nat) : Nat :=
  let n := p / q
  let r := p % q
  if 2 * r < q then n
  else if q < 2 * r then n + 1
  else n + n % 2

/-- Numerator and denominator of `p / q / 2 ^ e`. -/
def unscale (p q : Nat) (e : Int) : Nat × Nat :=
  if e < 0 then (p * Nat.pow 2 (-e).toNat, q) else (p, q * Nat.pow 2 e.toNat)

/-- The exponent at which `p / q` has a mantissa of 53 bits, or the least exponent. -/
def exponentFor (p q : Nat) : Int :=
  let e := max ((p.log2 : Int) - q.log2 - 53) leastExponent
  let (a, b) := unscale p q e
  if a / b < Nat.pow 2 53 then e else e + 1

def nearest (negative : Bool) (p q : Nat) : Binary64 :=
  if p = 0 then .finite negative 0 leastExponent
  else
    let e := exponentFor p q
    let (a, b) := unscale p q e
    let m := divToEven a b
    let (m, e) := if m = Nat.pow 2 53 then (Nat.pow 2 52, e + 1) else (m, e)
    if greatestExponent < e then .infinite negative else .finite negative m e

def fraction (m : Nat) (e : Int) : Nat × Nat :=
  if e < 0 then (m, Nat.pow 2 (-e).toNat) else (m * Nat.pow 2 e.toNat, 1)

/-- The number nearest to `n * 10 ^ e`; far outside the range of exponents the answer is known
without the power. -/
def ofDecimal (negative : Bool) (n : Nat) (e : Int) : Binary64 :=
  let size := (n.log2 : Int) / 3 + e
  if n = 0 then .finite negative 0 leastExponent
  else if 400 < e then .infinite negative
  else if size < -400 then .finite negative 0 leastExponent
  else if e < 0 then nearest negative n (Nat.pow 10 (-e).toNat)
  else nearest negative (n * Nat.pow 10 e.toNat) 1

def times : Binary64 → Nat → Binary64
  | .finite negative m e, n =>
    let (p, q) := fraction m e
    nearest negative (p * n) q
  | x, _ => x

def plusHalf : Binary64 → Binary64
  | .finite _ m e =>
    let (p, q) := fraction m e
    nearest false (2 * p + q) (2 * q)
  | x => x

def toInt? : Binary64 → Option Int
  | .finite negative m e =>
    let (p, q) := fraction m e
    if p % q = 0 then some (if negative then -((p / q : Nat) : Int) else (p / q : Nat)) else none
  | _ => none

def truncate? : Binary64 → Option Int
  | .finite negative m e =>
    let (p, q) := fraction m e
    some (if negative then -((p / q : Nat) : Int) else (p / q : Nat))
  | _ => none

end Binary64

end ChangeImpact
