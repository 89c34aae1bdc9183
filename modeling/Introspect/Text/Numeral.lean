/-!
Decimal numerals: writing naturals and integers, and reading them within bounds.

A numeral is a non-empty run of ASCII digits; a sign may stand in front where the reader allows it.
-/

namespace Introspect.Text

def digitChar (d : Nat) : Char := Char.ofNat (48 + d)

def digitOf (c : Char) : Nat := c.toNat - 48

/-- Decimal digits, most significant first, without leading zeros. -/
def decimalChars (n : Nat) : List Char :=
  if n < 10 then [digitChar n] else decimalChars (n / 10) ++ [digitChar (n % 10)]

def decimal (n : Nat) : String := String.ofList (decimalChars n)

def signedDecimal (n : Int) : String :=
  if n < 0 then "-" ++ decimal n.natAbs else decimal n.natAbs

/-- Value of a list of digits read after the value `acc`. -/
def digitsValueFrom (acc : Nat) : List Char → Nat
  | [] => acc
  | c :: s => digitsValueFrom (10 * acc + digitOf c) s

def digitsValue (s : List Char) : Nat := digitsValueFrom 0 s

/-- Non-empty run of ASCII digits. -/
def isNumeral (s : List Char) : Bool := !s.isEmpty && s.all Char.isDigit

def natOfChars? (s : List Char) : Option Nat :=
  if isNumeral s then some (digitsValue s) else none

/-- A numeral after an optional sign. -/
def intOfChars? : List Char → Option Int
  | '-' :: s => (natOfChars? s).map fun n => -(n : Int)
  | '+' :: s => (natOfChars? s).map fun n => (n : Int)
  | s => (natOfChars? s).map fun n => (n : Int)

/-- An integer numeral with a value in the closed interval. -/
def intInRange? (low high : Int) (s : List Char) : Option Int :=
  match intOfChars? s with
  | some n => if low ≤ n ∧ n ≤ high then some n else none
  | none => none

/-- Why a text is no natural number within a bound. -/
inductive NumeralFault where
  | invalidDigit
  | tooLarge
  deriving DecidableEq, Repr

def NumeralFault.message : NumeralFault → String
  | .invalidDigit => "invalid digit found in string"
  | .tooLarge => "number too large to fit in target type"

/-- Reads digits from the left after the value `acc`. The fault met first wins; a character that is
no digit wins over the overflow it would cause. -/
def readDigits (bound acc : Nat) : List Char → Except NumeralFault Nat
  | [] => .ok acc
  | c :: s =>
    if c.isDigit then
      let n := 10 * acc + digitOf c
      if n ≤ bound then readDigits bound n s else .error .tooLarge
    else .error .invalidDigit

/-- Natural number at most `bound`, after an optional plus sign. -/
def natAtMost (bound : Nat) : List Char → Except NumeralFault Nat
  | [] => .error .invalidDigit
  | '+' :: [] => .error .invalidDigit
  | '+' :: s => readDigits bound 0 s
  | s => readDigits bound 0 s

/-- Hexadecimal digits in lower case, without leading zeros. -/
def hexChars (n : Nat) : List Char := Nat.toDigits 16 n

/-- `s` behind as many zeros as give it the width. -/
def padLeft (width : Nat) (s : List Char) : String :=
  String.ofList (List.replicate (width - s.length) '0' ++ s)

def hexDigitOf (c : Char) : Nat := if c.isDigit then digitOf c else c.toLower.toNat - 87

/-- Value of a run of hexadecimal digits. -/
def hexValue (s : List Char) : Nat := s.foldl (fun n c => 16 * n + hexDigitOf c) 0

end Introspect.Text
