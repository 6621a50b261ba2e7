/-!
# Numerals

Whole numbers as they are written in digits of a base up to sixteen.
-/

namespace OrderCluster.Text

/-- The value of a digit; letters stand for the digits above nine. -/
def digitValue? (c : Char) : Option Nat :=
  if c.isDigit then some (c.toNat - '0'.toNat)
  else if 'a' ≤ c && c ≤ 'f' then some (c.toNat - 'a'.toNat + 10)
  else if 'A' ≤ c && c ≤ 'F' then some (c.toNat - 'A'.toNat + 10)
  else none

def addDigit? (base n : Nat) (c : Char) : Option Nat := do
  let digit ← digitValue? c
  if digit < base then some (n * base + digit) else none

def numeral? (base : Nat) : List Char → Option Nat
  | [] => none
  | digits => digits.foldlM (addDigit? base) 0

end OrderCluster.Text
