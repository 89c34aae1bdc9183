import Introspect.Types.Expr

/-!
Primitive kinds and the names of the built-in classes.

Every kind has a primitive class, whose slots never hold null, and a wrapper class, whose slots may.
-/

namespace Introspect

inductive PrimitiveKind where
  | bool | int8 | int16 | int32 | int64 | float32 | float64 | char
  deriving DecidableEq, Repr, Inhabited

namespace PrimitiveKind

def all : List PrimitiveKind := [.bool, .int8, .int16, .int32, .int64, .float32, .float64, .char]

def className : PrimitiveKind → String
  | .bool => "bool"
  | .int8 => "i8"
  | .int16 => "i16"
  | .int32 => "i32"
  | .int64 => "i64"
  | .float32 => "f32"
  | .float64 => "f64"
  | .char => "char"

def wrapperName : PrimitiveKind → String
  | .bool => "Boolean"
  | .int8 => "Byte"
  | .int16 => "Short"
  | .int32 => "Integer"
  | .int64 => "Long"
  | .float32 => "Float"
  | .float64 => "Double"
  | .char => "Character"

/-- Name of the kind itself, as descriptions show it. -/
def label : PrimitiveKind → String
  | .bool => "Bool"
  | .int8 => "I8"
  | .int16 => "I16"
  | .int32 => "I32"
  | .int64 => "I64"
  | .float32 => "F32"
  | .float64 => "F64"
  | .char => "Char"

def primitiveId (k : PrimitiveKind) : ClassId := ⟨k.className⟩

def wrapperId (k : PrimitiveKind) : ClassId := ⟨k.wrapperName⟩

/-- The kind whose primitive class has this name. -/
def ofClassName? (name : String) : Option PrimitiveKind := all.find? (·.className = name)

end PrimitiveKind

namespace ClassId

def object : ClassId := ⟨"Object"⟩

def string : ClassId := ⟨"String"⟩

def list : ClassId := ⟨"List"⟩

def arrayList : ClassId := ⟨"ArrayList"⟩

def map : ClassId := ⟨"Map"⟩

def hashMap : ClassId := ⟨"HashMap"⟩

/-- The class of observable holders. -/
def holder : ClassId := ⟨"Variable"⟩

end ClassId

namespace TypeExpr

def object : TypeExpr := .named .object

def listOf (item : TypeExpr) : TypeExpr := .apply .list [item]

def mapOf (key value : TypeExpr) : TypeExpr := .apply .map [key, value]

def holderOf (value : TypeExpr) : TypeExpr := .apply .holder [value]

/-- The class of a resolved type; `Object` for anything that has none. -/
def rawClass (ty : TypeExpr) : ClassId := ty.raw?.getD .object

end TypeExpr
end Introspect
