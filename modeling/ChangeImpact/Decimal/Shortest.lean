import ChangeImpact.Decimal.Binary64
import ChangeImpact.Decimal.Digits

/-!
# Shortest decimals

The written form of a floating-point number: the fewest digits that read back as the same
number, and of those the nearest to it, the even one of two that are as near. Positional from
`0.0001` up to below `10 ^ 16`, with a point in every case; beyond that one digit before the
point and an exponent of two digits or more.
-/

namespace ChangeImpact.Decimal

def leadingPlace (p q : Nat) : Int :=
  if q ≤ p then (digits (p / q)).length - 1
  else -((digits ((q + p - 1) / p - 1)).length : Int)

def gridBelow (p q : Nat) (place : Int) : Nat :=
  if place < 0 then p * Nat.pow 10 (-place).toNat / q else p / (q * Nat.pow 10 place.toNat)

/-- `p / q` lies nearer to `(d + 1) * 10 ^ place` than to `d * 10 ^ place`, or just as near and
`d` is odd. -/
def nearerAbove (p q : Nat) (place : Int) (d : Nat) : Bool :=
  let (a, b) :=
    if place < 0 then (p * Nat.pow 10 (-place).toNat, q) else (p, q * Nat.pow 10 place.toNat)
  if (2 * d + 1) * b = 2 * a then d % 2 = 1 else (2 * d + 1) * b < 2 * a

/-- Digits and place of a decimal with `count` digits that reads back as `m * 2 ^ e`. -/
def readsBack? (m : Nat) (e : Int) (count : Nat) : Option (Nat × Int) :=
  let (p, q) := Binary64.fraction m e
  let place := leadingPlace p q - count + 1
  let d := gridBelow p q place
  let hits (d : Nat) : Bool := Binary64.ofDecimal false d place == .finite false m e
  if hits d && hits (d + 1) then some (if nearerAbove p q place d then d + 1 else d, place)
  else if hits d then some (d, place)
  else if hits (d + 1) then some (d + 1, place)
  else none

def shortest (m : Nat) (e : Int) : Nat × Int :=
  ((List.range 17).findSome? fun k => readsBack? m e (k + 1)).getD (m, e)

def dropZeros (ds : List Char) : List Char :=
  (ds.reverse.dropWhile (· == '0')).reverse

def positional (ds : List Char) (point : Int) : List Char :=
  if point < 0 then '0' :: '.' :: List.replicate (-point - 1).toNat '0' ++ ds
  else
    let whole := point.toNat + 1
    if ds.length ≤ whole then ds ++ List.replicate (whole - ds.length) '0' ++ ['.', '0']
    else ds.take whole ++ '.' :: ds.drop whole

def scientific (ds : List Char) (point : Int) : List Char :=
  let mantissa := match ds with
    | d :: [] => [d]
    | d :: r => d :: '.' :: r
    | [] => []
  let e := digits point.natAbs
  let e := if e.length < 2 then '0' :: e else e
  mantissa ++ 'e' :: (if point < 0 then '-' else '+') :: e

def magnitude (m : Nat) (e : Int) : List Char :=
  if m = 0 then ['0', '.', '0']
  else
    let (d, place) := shortest m e
    let ds := digits d
    let point := place + ds.length - 1
    let ds := dropZeros ds
    if -4 ≤ point && point < 16 then positional ds point else scientific ds point

def ofBinary64 : Binary64 → String
  | .finite negative m e => String.ofList (if negative then '-' :: magnitude m e else magnitude m e)
  | .infinite negative => if negative then "-inf" else "inf"
  | .notANumber => "nan"

end ChangeImpact.Decimal
