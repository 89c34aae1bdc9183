/-!
Binary floating-point formats, by their bits.

A format stores a sign, an exponent field and a fraction field. `Format.decode` splits a bit pattern;
`Format.nearest` gives the pattern of the value nearest to a quotient of naturals, ties to even.
-/

namespace Introspect.Decimal

structure Format where
  fractionBits : Nat
  exponentBits : Nat
  deriving DecidableEq, Repr

def single : Format := ⟨23, 8⟩

def double : Format := ⟨52, 11⟩

namespace Format

def bias (f : Format) : Nat := Nat.pow 2 (f.exponentBits - 1) - 1

/-- Exponent of the least positive value. -/
def minExponent (f : Format) : Int := 1 - (f.bias : Int) - f.fractionBits

/-- Pattern of positive infinity: the exponent field full, the fraction zero. -/
def infinity (f : Format) : Nat := (Nat.pow 2 f.exponentBits - 1) * Nat.pow 2 f.fractionBits

def signBit (f : Format) : Nat := Nat.pow 2 (f.exponentBits + f.fractionBits)

/-- Pattern of the quiet NaN with an empty payload. -/
def quietNaN (f : Format) : Nat := f.infinity + Nat.pow 2 (f.fractionBits - 1)

end Format

/-- What a bit pattern stands for, the sign apart. `finite m q narrow` is `m * 2^q`; `narrow` tells
that the gap to the value below is half the gap to the value above. -/
inductive Magnitude where
  | nan (payload : Nat)
  | infinite
  | finite (m : Nat) (q : Int) (narrow : Bool)
  deriving DecidableEq, Repr

structure Decoded where
  negative : Bool
  magnitude : Magnitude
  deriving DecidableEq, Repr

namespace Format

def decode (f : Format) (bits : Nat) : Decoded :=
  let e := bits / Nat.pow 2 f.fractionBits % Nat.pow 2 f.exponentBits
  let m := bits % Nat.pow 2 f.fractionBits
  let negative := bits / f.signBit % 2 == 1
  if e = Nat.pow 2 f.exponentBits - 1 then
    ⟨negative, if m = 0 then .infinite else .nan m⟩
  else if e = 0 then
    ⟨negative, .finite m f.minExponent false⟩
  else
    let leading := Nat.pow 2 f.fractionBits
    ⟨negative, .finite (leading + m) (f.minExponent + (e - 1 : Nat)) (m == 0 && e > 1)⟩

/-- Quotient rounded to nearest, ties to even. -/
def roundedQuotient (num den : Nat) : Nat :=
  let q := num / den
  match compare (2 * (num % den)) den with
  | .lt => q
  | .gt => q + 1
  | .eq => if q % 2 = 0 then q else q + 1

/-- Exponent of the greatest power of two at most `num / den`, for a positive quotient. -/
def floorLog2 (num den : Nat) : Int :=
  let e : Int := (num.log2 : Int) - den.log2
  if den * Nat.pow 2 e.toNat ≤ num * Nat.pow 2 (-e).toNat then e else e - 1

/-- Bits, without sign, of the value nearest to `num / den`; infinity beyond the largest value. -/
def nearest (f : Format) (num den : Nat) : Nat :=
  if num = 0 then 0
  else
    let q := max f.minExponent (floorLog2 num den - f.fractionBits)
    let m := roundedQuotient (num * Nat.pow 2 (-q).toNat) (den * Nat.pow 2 q.toNat)
    min f.infinity ((q - f.minExponent).toNat * Nat.pow 2 f.fractionBits + m)

def withSign (f : Format) (negative : Bool) (bits : Nat) : Nat :=
  if negative then f.signBit + bits else bits

/-- The pattern in the format `g` of the value with pattern `bits` in `f`. A NaN becomes quiet and
keeps its payload, moved to the top of the wider fraction. -/
def convert (f g : Format) (bits : Nat) : Nat :=
  let d := f.decode bits
  g.withSign d.negative <|
    match d.magnitude with
    | .infinite => g.infinity
    | .nan payload =>
      let quiet := Nat.pow 2 (f.fractionBits - 1)
      let payload := if payload < quiet then payload + quiet else payload
      g.infinity + payload * Nat.pow 2 (g.fractionBits - f.fractionBits)
    | .finite m q _ => g.nearest (m * Nat.pow 2 q.toNat) (Nat.pow 2 (-q).toNat)

end Format

example : double.nearest 1 10 = 0x3FB999999999999A := by decide +kernel
example : single.nearest 1 10 = 0x3DCCCCCD := by decide +kernel
example : single.convert double 0x3DCCCCCD = 0x3FB99999A0000000 := by decide +kernel

end Introspect.Decimal
