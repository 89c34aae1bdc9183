import Introspect.Classes.Primitive
import Introspect.Decimal.Binary
import Introspect.Error

/-!
Runtime values.

Scalars are held inline, floats by their bit patterns. Objects, sequences, maps and holders are
references into a heap; a reference carries the class of what it points to, which never changes. So
equality of values is bitwise on floats and by identity on references.
-/

namespace Introspect

structure Ref where
  cls : ClassId
  index : Nat
  deriving DecidableEq, Repr, Inhabited

inductive Value where
  | null
  | bool (b : Bool)
  | int8 (n : Int8)
  | int16 (n : Int16)
  | int32 (n : Int32)
  | int64 (n : Int64)
  | float32 (bits : UInt32)
  | float64 (bits : UInt64)
  | char (c : Char)
  | text (s : String)
  | enumConstant (cls : ClassId) (name : String)
  | object (ref : Ref)
  | list (ref : Ref)
  | array (ref : Ref)
  | map (ref : Ref)
  | holder (index : Nat)
  deriving DecidableEq, Repr, Inhabited

namespace Value

def isNull : Value → Bool
  | .null => true
  | _ => false

def primitiveKind? : Value → Option PrimitiveKind
  | .bool _ => some .bool
  | .int8 _ => some .int8
  | .int16 _ => some .int16
  | .int32 _ => some .int32
  | .int64 _ => some .int64
  | .float32 _ => some .float32
  | .float64 _ => some .float64
  | .char _ => some .char
  | _ => none

/-- Class of a value. Primitives report their wrapper; null has none. -/
def runtimeClass? : Value → Option ClassId
  | .null => none
  | .bool _ => some PrimitiveKind.bool.wrapperId
  | .int8 _ => some PrimitiveKind.int8.wrapperId
  | .int16 _ => some PrimitiveKind.int16.wrapperId
  | .int32 _ => some PrimitiveKind.int32.wrapperId
  | .int64 _ => some PrimitiveKind.int64.wrapperId
  | .float32 _ => some PrimitiveKind.float32.wrapperId
  | .float64 _ => some PrimitiveKind.float64.wrapperId
  | .char _ => some PrimitiveKind.char.wrapperId
  | .text _ => some .string
  | .enumConstant cls _ => some cls
  | .object ref | .list ref | .array ref | .map ref => some ref.cls
  | .holder _ => some .holder

def typeName (v : Value) : String :=
  match v.runtimeClass? with
  | some id => id.name
  | none => "null"

/-- The value a non-nullable slot of the kind starts with. -/
def zero : PrimitiveKind → Value
  | .bool => .bool false
  | .int8 => .int8 0
  | .int16 => .int16 0
  | .int32 => .int32 0
  | .int64 => .int64 0
  | .float32 => .float32 0
  | .float64 => .float64 0
  | .char => .char '\x00'

/-! ## Views -/

def mismatch (expected : String) (v : Value) : Error := .typeMismatch expected v.typeName

def asObject : Value → Except Error Ref
  | .object ref => .ok ref
  | v => .error (v.mismatch "object")

def asList : Value → Except Error Ref
  | .list ref => .ok ref
  | v => .error (v.mismatch "list")

def asArray : Value → Except Error Ref
  | .array ref => .ok ref
  | v => .error (v.mismatch "array")

/-- List or array. -/
def asSequence : Value → Except Error Ref
  | .list ref | .array ref => .ok ref
  | v => .error (v.mismatch "list or array")

def asMap : Value → Except Error Ref
  | .map ref => .ok ref
  | v => .error (v.mismatch "map")

def asHolder : Value → Except Error Nat
  | .holder index => .ok index
  | v => .error (v.mismatch ClassId.holder.name)

def asBool? : Value → Option Bool
  | .bool b => some b
  | _ => none

/-- An integer of at most 32 bits. -/
def asInt32? : Value → Option Int
  | .int8 n => some n.toInt
  | .int16 n => some n.toInt
  | .int32 n => some n.toInt
  | _ => none

/-- An integer of any width. -/
def asInt64? : Value → Option Int
  | .int8 n => some n.toInt
  | .int16 n => some n.toInt
  | .int32 n => some n.toInt
  | .int64 n => some n.toInt
  | _ => none

/-- Bits of the double-precision value of a float of either width. -/
def asFloat64? : Value → Option UInt64
  | .float32 bits => some (.ofNat (Decimal.single.convert Decimal.double bits.toNat))
  | .float64 bits => some bits
  | _ => none

def asChar? : Value → Option Char
  | .char c => some c
  | _ => none

def asText? : Value → Option String
  | .text s => some s
  | _ => none

def asConstant? : Value → Option String
  | .enumConstant _ name => some name
  | _ => none

end Value
end Introspect
