import Introspect.Decimal.Binary
import Introspect.Text.Numeral

/-!
Reading decimal floating-point text.

The text is a sign, then digits with at most one point among them (at least one digit), then perhaps
an exponent; or, for the special values, `inf`, `infinity` or `nan` in any case. The value is rounded
once, to nearest, ties to even.
-/

namespace Introspect.Decimal

open Text

/-- The unsigned number `digits * 10^exponent` as written. -/
structure Written where
  digits : Nat
  exponent : Int
  deriving DecidableEq, Repr

/-- Value of an exponent's digits. It stops growing past 65536, far beyond every format's range. -/
def exponentValue (s : List Char) : Nat :=
  s.foldl (fun n c => if n < 65536 then 10 * n + digitOf c else n) 0

/-- The digits behind the exponent mark, after an optional sign; nothing may follow. -/
def exponentOf? : List Char → Option Int
  | '-' :: s => if isNumeral s then some (-(exponentValue s : Int)) else none
  | '+' :: s => if isNumeral s then some (exponentValue s) else none
  | s => if isNumeral s then some (exponentValue s) else none

/-- What may stand behind the digits: nothing, or an exponent. -/
def suffixExponent? : List Char → Option Int
  | [] => some 0
  | c :: s => if c = 'e' ∨ c = 'E' then exponentOf? s else none

def written? (s : List Char) : Option Written :=
  let whole := s.takeWhile Char.isDigit
  let (fraction, rest) :=
    match s.dropWhile Char.isDigit with
    | '.' :: t => (t.takeWhile Char.isDigit, t.dropWhile Char.isDigit)
    | t => ([], t)
  if whole.isEmpty && fraction.isEmpty then none
  else
    (suffixExponent? rest).map fun e =>
      ⟨digitsValue (whole ++ fraction), e - fraction.length⟩

/-- Bits of the value nearest to the written number. Numbers far outside the range of every format
are decided without computing their power of ten. -/
def Written.bits (f : Format) (w : Written) : Nat :=
  let leading := w.exponent + (decimalChars w.digits).length
  if w.digits = 0 ∨ leading < -400 then 0
  else if 400 < leading then f.infinity
  else f.nearest (w.digits * Nat.pow 10 w.exponent.toNat) (Nat.pow 10 (-w.exponent).toNat)

def specialBits? (f : Format) (s : List Char) : Option Nat :=
  let s := s.map Char.toLower
  if s = "inf".toList ∨ s = "infinity".toList then some f.infinity
  else if s = "nan".toList then some f.quietNaN
  else none

def unsignedBits? (f : Format) (s : List Char) : Option Nat :=
  match written? s with
  | some w => some (w.bits f)
  | none => specialBits? f s

/-- Bits of the number written in the text, if it is one. -/
def bitsOfChars? (f : Format) : List Char → Option Nat
  | '-' :: s => (unsignedBits? f s).map (f.withSign true)
  | '+' :: s => unsignedBits? f s
  | s => unsignedBits? f s

example : bitsOfChars? double "1.5e3".toList = some 0x4097700000000000 := by decide +kernel
example : bitsOfChars? double "5e-324".toList = some 1 := by decide +kernel
example : bitsOfChars? double "-inf".toList = some 0xFFF0000000000000 := by decide +kernel
example : bitsOfChars? double ".".toList = none := by decide +kernel

end Introspect.Decimal
