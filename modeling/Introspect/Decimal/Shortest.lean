import Introspect.Decimal.Binary
import Introspect.Text.Numeral

/-!
The shortest decimal that reads back to a binary value.

A decimal reads back when it lies among the reals that round to the value: the interval from halfway
to the value below to halfway to the value above, its ends included when the significand is even.
`Magnitude.shortest` tries 1, 2, … digits; the two decimals beside the value on the grid of that many
digits are tested, and of two hits the nearer is taken, the upper one on a tie.
-/

namespace Introspect.Decimal

/-- The number `digits * 10^exponent`. -/
structure Scaled where
  digits : Nat
  exponent : Int
  deriving DecidableEq, Repr

/-- Compares `a * 10^i` with `n * 2^j`. -/
def compareScaled (a : Nat) (i : Int) (n : Nat) (j : Int) : Ordering :=
  compare (a * Nat.pow 10 i.toNat * Nat.pow 2 (-j).toNat)
    (n * Nat.pow 2 j.toNat * Nat.pow 10 (-i).toNat)

/-- The decimal lies among the reals that round to `m * 2^q`. -/
def readsBack (m : Nat) (q : Int) (narrow : Bool) (d : Scaled) : Bool :=
  let low := if narrow then 4 * m - 1 else 4 * m - 2
  let high := 4 * m + 2
  let closed := m % 2 == 0
  let below := compareScaled d.digits d.exponent low (q - 2)
  let above := compareScaled d.digits d.exponent high (q - 2)
  (below == .gt || (closed && below == .eq)) && (above == .lt || (closed && above == .eq))

def digitCount (n : Nat) : Nat := (Text.decimalChars n).length

/-- The least `k` with `num / den < 10^k`, for a positive quotient. -/
def decimalScale (num den : Nat) : Int :=
  if den ≤ num then digitCount (num / den)
  else
    let above := (den + num - 1) / num
    1 - (digitCount (above - 1) : Int)

/-- The grid point of exponent `g` at most `num / den`. -/
def floorOnGrid (num den : Nat) (g : Int) : Nat :=
  num * Nat.pow 10 (-g).toNat / (den * Nat.pow 10 g.toNat)

/-- The grid point of exponent `g` that reads back, if the value has such a neighbour. -/
def onGrid? (m : Nat) (q : Int) (narrow : Bool) (g : Int) : Option Scaled :=
  let num := m * Nat.pow 2 q.toNat
  let den := Nat.pow 2 (-q).toNat
  let lower : Scaled := ⟨floorOnGrid num den g, g⟩
  let upper : Scaled := ⟨lower.digits + 1, g⟩
  match readsBack m q narrow lower, readsBack m q narrow upper with
  | false, false => none
  | true, false => some lower
  | false, true => some upper
  | true, true =>
    if compareScaled (2 * lower.digits + 1) g (2 * m) q == .gt then some lower else some upper

/-- Moves the trailing zeros of the digits into the exponent. -/
def stripZeros (d : Scaled) : Scaled :=
  if h : d.digits ≠ 0 ∧ d.digits % 10 = 0 then stripZeros ⟨d.digits / 10, d.exponent + 1⟩ else d
termination_by d.digits
decreasing_by omega

/-- The exact decimal value of `m * 2^q`. -/
def exactDecimal (m : Nat) (q : Int) : Scaled :=
  ⟨m * Nat.pow 2 q.toNat * Nat.pow 5 (-q).toNat, min q 0⟩

/-- The shortest decimal that reads back to `m * 2^q`. -/
def shortest (m : Nat) (q : Int) (narrow : Bool) : Scaled :=
  if m = 0 then ⟨0, 0⟩
  else
    let k := decimalScale (m * Nat.pow 2 q.toNat) (Nat.pow 2 (-q).toNat)
    let found := (List.range 17).findSome? fun n => onGrid? m q narrow (k - (n + 1 : Nat))
    stripZeros (found.getD (exactDecimal m q))

end Introspect.Decimal
