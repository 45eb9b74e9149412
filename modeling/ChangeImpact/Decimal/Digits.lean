/-!
# Decimal digits

The digits of a number without leading zeros, and the written form of an integer.
-/

namespace ChangeImpact.Decimal

def digits (n : Nat) : List Char :=
  if n < 10 then [Nat.digitChar n] else digits (n / 10) ++ [Nat.digitChar (n % 10)]
termination_by n

def ofNat (n : Nat) : String := String.ofList (digits n)

def ofInt : Int → String
  | .ofNat n => ofNat n
  | .negSucc n => String.ofList ('-' :: digits (n + 1))

end ChangeImpact.Decimal
