import Introspect.Decimal.Shortest

/-!
Text of floating-point values.

Two layouts of the shortest decimal are in use. `plain` is always positional and writes a whole number
without a point. `exact` shows the point also of whole numbers, and below 10^-4 and from 10^16 on it is
scientific. The sign of zero is written in both.
-/

namespace Introspect.Decimal

open Text

structure Layout where
  /-- Positional when the exponent of the leading digit lies in this half-open interval; always if
  there is none. -/
  positional : Option (Int × Int)
  /-- A whole number ends in `.0`. -/
  pointZero : Bool
  deriving DecidableEq, Repr

def plain : Layout := ⟨none, false⟩

def exact : Layout := ⟨some (-4, 16), true⟩

def zeros (n : Nat) : List Char := List.replicate n '0'

/-- The digits with the point at its place. -/
def positionalChars (pointZero : Bool) (d : Scaled) : List Char :=
  let ds := decimalChars d.digits
  if 0 ≤ d.exponent then
    ds ++ zeros d.exponent.toNat ++ (if pointZero then ['.', '0'] else [])
  else
    let places := (-d.exponent).toNat
    let ds := zeros (places + 1 - ds.length) ++ ds
    ds.take (ds.length - places) ++ '.' :: ds.drop (ds.length - places)

/-- The leading digit, the others after a point, and the exponent behind `e`. -/
def scientificChars (d : Scaled) : List Char :=
  let ds := decimalChars d.digits
  let e := d.exponent + ds.length - 1
  let tail := match ds.tail with
    | [] => []
    | rest => '.' :: rest
  ds.take 1 ++ tail ++ 'e' :: (signedDecimal e).toList

def Layout.chars (l : Layout) (d : Scaled) : List Char :=
  let leading := d.exponent + digitCount d.digits - 1
  match l.positional with
  | some (low, high) =>
    if d.digits = 0 ∨ (low ≤ leading ∧ leading < high) then positionalChars l.pointZero d
    else scientificChars d
  | none => positionalChars l.pointZero d

/-- Text of the value with these bits. -/
def Layout.text (l : Layout) (f : Format) (bits : Nat) : String :=
  let d := f.decode bits
  match d.magnitude with
  | .nan _ => "NaN"
  | .infinite => if d.negative then "-inf" else "inf"
  | .finite m q narrow =>
    String.ofList ((if d.negative then ['-'] else []) ++ l.chars (shortest m q narrow))

example : plain.text double 0x3FB999999999999A = "0.1" := by decide +kernel
example : plain.text double 0x3E60000000000000 = "0.000000029802322387695313" := by decide +kernel
example : exact.text double 0x444B1AE4D6E2EF50 = "1e21" := by decide +kernel
example : exact.text single 0x3DCCCCCD = "0.1" := by decide +kernel

end Introspect.Decimal
