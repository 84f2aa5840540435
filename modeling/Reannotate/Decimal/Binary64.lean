/-!
# Doubles, exactly

A double is kept as its sign, significand and exponent, so reading a decimal, comparing and printing
are arithmetic on whole numbers. `ofDecimal` rounds to the nearest double, a tie to the even
significand.
-/

namespace Reannotate

/-- `finite` stands for `significand * 2 ^ exponent`, with the exponent at least `-1074` and as
small as a significand below `2 ^ 53` lets it be. -/
inductive Binary64
  | finite (negative : Bool) (significand : Nat) (exponent : Int)
  | infinite (negative : Bool)
  | nan
  deriving DecidableEq

namespace Binary64

def minExponent : Int := -1074

def maxExponent : Int := 971

def zero (negative : Bool) : Binary64 :=
  .finite negative 0 minExponent

def isZero : Binary64 → Bool
  | .finite _ m _ => m = 0
  | _ => false

/-- The whole number nearest to `n / d`, a tie to the even one. -/
def roundDiv (n d : Nat) : Nat :=
  let q := n / d
  let twice := 2 * (n % d)
  if twice < d || (twice = d && q % 2 = 0) then q else q + 1

def scaleDown (n d : Nat) (e : Int) : Nat × Nat :=
  if 0 ≤ e then (n, d * Nat.pow 2 e.toNat) else (n * Nat.pow 2 (-e).toNat, d)

def pack (negative : Bool) (m : Nat) (e : Int) : Binary64 :=
  let (m, e) := if m = Nat.pow 2 53 then (Nat.pow 2 52, e + 1) else (m, e)
  if maxExponent < e then .infinite negative else .finite negative m e

def ofRatio (negative : Bool) (n d : Nat) : Binary64 :=
  let guess := max ((n.log2 : Int) - d.log2 - 53) minExponent
  let (a, b) := scaleDown n d guess
  let e := if a / b < Nat.pow 2 53 then guess else guess + 1
  let (a, b) := scaleDown n d e
  pack negative (roundDiv a b) e

/-- The double nearest to `digits * 10 ^ power`, where `length` bounds the number of digits. Powers
far outside the range of doubles are settled before anything is multiplied out. -/
def ofDecimal (negative : Bool) (digits length : Nat) (power : Int) : Binary64 :=
  if digits = 0 then zero negative
  else if 400 < power then .infinite negative
  else if (length : Int) + power < -400 then zero negative
  else if 0 ≤ power then ofRatio negative (digits * Nat.pow 10 power.toNat) 1
  else ofRatio negative digits (Nat.pow 10 (-power).toNat)

def whole? : Binary64 → Option Int
  | .finite negative m e =>
    let sign : Int := if negative then -1 else 1
    if 0 ≤ e then some (sign * (m * Nat.pow 2 e.toNat : Nat))
    else if m % Nat.pow 2 (-e).toNat = 0 then some (sign * (m / Nat.pow 2 (-e).toNat : Nat))
    else none
  | _ => none

end Binary64

end Reannotate
