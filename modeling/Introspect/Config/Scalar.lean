import Introspect.Config.Basic
import Introspect.Text.Numeral

/-!
Scalars of configuration documents and the settings they may give.

A setting is written as a plain scalar: a null, a boolean word in one of three capitalizations, or a
natural number in base 10, 16, 8 or 2. A number with a leading zero is a text, as is anything quoted.
A literal scalar gives a setting when its tag names the type of the setting.
-/

namespace Introspect
namespace Config

inductive ScalarStyle where
  | plain | quoted | literal | folded
  deriving DecidableEq, Repr, Inhabited

/-- The characters of a scalar with its tag, if any. -/
structure Scalar where
  style : ScalarStyle
  tag : Option (List Char)
  chars : List Char
  deriving DecidableEq, Repr, Inhabited

namespace Scalar

/-- An empty plain scalar, as it stands where a node is left out. -/
def empty : Scalar := ⟨.plain, none, []⟩

end Scalar

/-- What the tags of the core types start with. -/
def coreTagStart : List Char := "tag:yaml.org,2002:".toList

def coreTag (type : String) : List Char := coreTagStart ++ type.toList

inductive Key where
  | growth | privateAccessors | logScans
  deriving DecidableEq, Repr, Inhabited

namespace Key

def name : Key → String
  | .growth => "max_sequence_growth"
  | .privateAccessors => "include_private_accessors"
  | .logScans => "log_scans"

def ofChars? (s : List Char) : Option Key :=
  [growth, privateAccessors, logScans].find? fun k => k.name.toList = s

end Key

def isNullWord (s : List Char) : Bool :=
  ["~", "null", "Null", "NULL"].any fun w => w.toList = s

def boolOfWord? (s : List Char) : Option Bool :=
  if ["true", "True", "TRUE"].any (fun w => w.toList = s) then some true
  else if ["false", "False", "FALSE"].any (fun w => w.toList = s) then some false
  else none

/-- Value of a digit in bases up to 16. -/
def digitValue? (c : Char) : Option Nat :=
  if c.isDigit then some (Text.digitOf c)
  else if 'a' ≤ c ∧ c ≤ 'f' then some (c.toNat - 'a'.toNat + 10)
  else if 'A' ≤ c ∧ c ≤ 'F' then some (c.toNat - 'A'.toNat + 10)
  else none

def natInBase? (base : Nat) : List Char → Option Nat
  | [] => none
  | s => s.foldlM (fun n c =>
      match digitValue? c with
      | some d => if d < base then some (base * n + d) else none
      | none => none) 0

def stripPlus : List Char → List Char
  | '+' :: s => s
  | s => s

/-- A natural number in the notation of documents, whatever its size. -/
def natOfScalar? (s : List Char) : Option Nat :=
  match stripPlus s with
  | '0' :: 'x' :: digits => natInBase? 16 digits
  | '0' :: 'o' :: digits => natInBase? 8 digits
  | '0' :: 'b' :: digits => natInBase? 2 digits
  | ['0'] => some 0
  | '0' :: _ => none
  | digits => natInBase? 10 digits

def sizeOfScalar? (s : List Char) : Option Nat :=
  match natOfScalar? s with
  | some n => if n < sizeBound then some n else none
  | none => none

/-- A plain scalar may be read as any type, a literal one as the core type its tag names. -/
def Scalar.isReadAs (type : String) (s : Scalar) : Bool :=
  s.style = .plain || (s.style = .literal && s.tag = some (coreTag type))

def flagOfScalar? (s : Scalar) : Option Bool :=
  if s.isReadAs "bool" then boolOfWord? s.chars else none

/-- A plain null stands for no limit. Behind the tag of nulls nothing else is read; behind any other tag
only a number is. -/
def growthOfScalar? (s : Scalar) : Option (Option Nat) :=
  let number := if s.isReadAs "int" then (sizeOfScalar? s.chars).map some else none
  if s.style = .plain then
    match s.tag with
    | none => if s.chars.isEmpty || isNullWord s.chars then some none else number
    | some tag =>
      if tag = coreTag "null" then if isNullWord s.chars then some none else none
      else number
  else number

/-- The configuration with one setting replaced. -/
def set? (c : Config) (k : Key) (s : Scalar) : Option Config :=
  match k with
  | .growth => (growthOfScalar? s).map fun growthLimit => { c with growthLimit }
  | .privateAccessors => (flagOfScalar? s).map fun privateAccessors => { c with privateAccessors }
  | .logScans => (flagOfScalar? s).map fun logScans => { c with logScans }

/-- The defaults overridden by settings; no key may occur twice. -/
def ofSettings? (settings : List (Key × Scalar)) : Option Config :=
  if (settings.map (·.1)).Nodup then
    settings.foldlM (fun c s => c.set? s.1 s.2) default
  else none

end Config
end Introspect
