import Introspect.Text.CaseTable

/-!
Case mapping of single characters, and of the first character of a name.

A mapping may give several characters: the upper case of `ß` is `SS`.
-/

namespace Introspect.Text

def CaseRun.image? (r : CaseRun) (n : Nat) : Option Nat :=
  if inRun r.first r.last r.step n then some ((n : Int) + r.shift).toNat else none

/-- Maps one character: an expansion if there is one, else by the runs, else itself. -/
def mapCase (expansions : List (Nat × List Nat)) (runs : List CaseRun) (c : Char) : List Char :=
  match expansions.lookup c.toNat with
  | some cs => cs.map Char.ofNat
  | none =>
    match runs.findSome? (·.image? c.toNat) with
    | some n => [Char.ofNat n]
    | none => [c]

def upperOf (c : Char) : List Char := mapCase upperExpansions upperRuns c

def lowerOf (c : Char) : List Char := mapCase lowerExpansions lowerRuns c

def isUppercase (c : Char) : Bool :=
  uppercaseRuns.any fun r => inRun r.1 r.2.1 r.2.2 c.toNat

def capitalizeChars : List Char → List Char
  | [] => []
  | c :: s => upperOf c ++ s

def decapitalizeChars : List Char → List Char
  | [] => []
  | c :: s => lowerOf c ++ s

/-- Upper-cases the first character and keeps the rest. -/
def capitalize (s : String) : String := String.ofList (capitalizeChars s.toList)

/-- Lower-cases the first character and keeps the rest. -/
def decapitalize (s : String) : String := String.ofList (decapitalizeChars s.toList)

end Introspect.Text
