import Reannotate.Decimal.Binary64

/-!
# The shortest decimal that reads back

`shortest` looks for a decimal inside the interval of numbers that round to a double, on ever finer
grids of powers of ten: the first grid with a point inside gives the fewest digits, and of two such
points the nearer is taken. `text` writes it positionally while the decimal exponent is from -4 to
15, and always shows a point or an exponent.
-/

namespace Reannotate.Binary64

/-- The numbers that round to a double, over a common denominator: the double itself and the two
ends of the interval, which belong to it if the significand is even. -/
structure Neighbourhood where
  low : Nat
  value : Nat
  high : Nat
  scale : Nat
  closed : Bool

/-- Below a power of two the doubles lie twice as close. -/
def neighbourhood (m : Nat) (e : Int) : Neighbourhood :=
  let up := Nat.pow 2 e.toNat
  let below := if m = Nat.pow 2 52 && minExponent < e then 1 else 2
  { low := (4 * m - below) * up
    value := 4 * m * up
    high := (4 * m + 2) * up
    scale := 4 * Nat.pow 2 (-e).toNat
    closed := m % 2 = 0 }

def Neighbourhood.admits (n : Neighbourhood) (point unit : Nat) : Bool :=
  if n.closed then n.low * unit ≤ point && point ≤ n.high * unit
  else n.low * unit < point && point < n.high * unit

/-- The admitted multiple of `10 ^ power` nearest to the double, if one of its two neighbours on
that grid is admitted; of two equally near the even one. -/
def Neighbourhood.onGrid (n : Neighbourhood) (power : Int) : Option Nat :=
  let step := n.scale * Nat.pow 10 power.toNat
  let unit := Nat.pow 10 (-power).toNat
  let value := n.value * unit
  let t := value / step
  match n.admits (t * step) unit, n.admits ((t + 1) * step) unit with
  | true, false => some t
  | false, true => some (t + 1)
  | false, false => none
  | true, true =>
    let below := value - t * step
    let above := (t + 1) * step - value
    if below < above || (below = above && t % 2 = 0) then some t else some (t + 1)

def Neighbourhood.firstGrid (n : Neighbourhood) : Nat → Int → Nat × Int
  | 0, power => (0, power)
  | count + 1, power =>
    match n.onGrid power with
    | some digits => (digits, power)
    | none => n.firstGrid count (power - 1)

/-- A power of ten above `m * 2 ^ e`, by at most two places. -/
def powerAbove (m : Nat) (e : Int) : Int :=
  ((m.log2 + 1 + e) * 30103).fdiv 100000 + 1

/-- Digits `d` and power `p` of the shortest decimal `d * 10 ^ p` that reads back as `m * 2 ^ e`. -/
def shortest (m : Nat) (e : Int) : Nat × Int :=
  (neighbourhood m e).firstGrid 22 (powerAbove m e)

def zerosText (n : Nat) : List Char :=
  List.replicate n '0'

def exponentText (x : Int) : List Char :=
  let digits := (Nat.repr x.natAbs).toList
  'e' :: (if x < 0 then '-' else '+') :: (zerosText (2 - digits.length) ++ digits)

def placed (digits : List Char) (point : Int) : List Char :=
  if point < -3 || 16 < point then
    let fraction := digits.drop 1
    digits.take 1 ++ (if fraction.isEmpty then [] else '.' :: fraction) ++ exponentText (point - 1)
  else if point ≤ 0 then '0' :: '.' :: (zerosText (-point).toNat ++ digits)
  else
    let fraction := digits.drop point.toNat
    digits.take point.toNat ++ zerosText (point.toNat - digits.length) ++
      '.' :: (if fraction.isEmpty then ['0'] else fraction)

def unsigned (m : Nat) (e : Int) : List Char :=
  if m = 0 then ['0', '.', '0']
  else
    let (d, p) := shortest m e
    let digits := (Nat.repr d).toList
    placed digits (digits.length + p)

def textWith (infinity notANumber : String) : Binary64 → String
  | .finite negative m e => String.ofList ((if negative then ['-'] else []) ++ unsigned m e)
  | .infinite negative => if negative then "-" ++ infinity else infinity
  | .nan => notANumber

end Reannotate.Binary64
