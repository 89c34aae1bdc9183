import Introspect.Classes.Members
import Introspect.Text.Casing

/-!
Declarations: classes put together step by step.

`build` finishes a declaration. It refuses a record without components and an enumeration without
constants, and gives a record its canonical constructor unless one was declared.

An accessor of a field `name` is named by the capitalized field name after `get`, or `is` for booleans,
and `set`.
-/

namespace Introspect

/-- A class that is still being declared. -/
structure Declaration where
  draft : Class
  deriving Inhabited

namespace Declaration

open Text

def id (d : Declaration) : ClassId := d.draft.id

/-! ## Kinds -/

def plain (id : ClassId) : Declaration := ⟨.bare id .plain⟩

def interface (id : ClassId) : Declaration :=
  ⟨{ Class.bare id .interface with modifiers := { isPublic := true, isAbstract := true } }⟩

def record (id : ClassId) : Declaration :=
  ⟨{ Class.bare id .record with modifiers := { isPublic := true, isFinal := true } }⟩

def enumeration (id : ClassId) (constants : List String) : Declaration :=
  ⟨{ Class.bare id (.enumeration constants) with
      modifiers := { isPublic := true, isFinal := true } }⟩

/-! ## Header -/

def typeParam (d : Declaration) (name : String) (bounds : List TypeExpr) : Declaration :=
  ⟨{ d.draft with typeParams := d.draft.typeParams ++ [⟨name, bounds⟩] }⟩

/-- A type parameter of this declaration as a type. -/
def var (d : Declaration) (name : String) : TypeExpr := .var d.id name

def withSuperclass (d : Declaration) (ty : TypeExpr) : Declaration :=
  ⟨{ d.draft with superclass := some ty }⟩

def withInterface (d : Declaration) (ty : TypeExpr) : Declaration :=
  ⟨{ d.draft with interfaces := d.draft.interfaces ++ [ty] }⟩

def withModifiers (d : Declaration) (m : Modifiers) : Declaration :=
  ⟨{ d.draft with modifiers := m }⟩

def markAbstract (d : Declaration) : Declaration :=
  ⟨{ d.draft with modifiers := { d.draft.modifiers with isAbstract := true } }⟩

def markSynthetic (d : Declaration) : Declaration := ⟨{ d.draft with synthetic := true }⟩

def markProxy (d : Declaration) : Declaration := ⟨{ d.draft with proxy := true }⟩

/-- Forbids the introspection of members. -/
def markClosed (d : Declaration) : Declaration := ⟨{ d.draft with accessible := false }⟩

/-! ## Members -/

def field (d : Declaration) (f : Field) : Declaration :=
  ⟨{ d.draft with fields := d.draft.fields ++ [f] }⟩

def method (d : Declaration) (m : Method) : Declaration :=
  ⟨{ d.draft with methods := d.draft.methods ++ [m] }⟩

def constructor (d : Declaration) (k : Constructor) : Declaration :=
  ⟨{ d.draft with constructors := d.draft.constructors ++ [k] }⟩

def publicField (d : Declaration) (name : String) (ty : TypeExpr) : Declaration :=
  d.field ⟨name, ty, .publicOnly, false⟩

def finalField (d : Declaration) (name : String) (ty : TypeExpr) : Declaration :=
  d.field ⟨name, ty, { isPublic := true, isFinal := true }, false⟩

def transientField (d : Declaration) (name : String) (ty : TypeExpr) : Declaration :=
  d.field ⟨name, ty, { isPublic := true, isTransient := true }, false⟩

def privateField (d : Declaration) (name : String) (ty : TypeExpr) : Declaration :=
  d.field ⟨name, ty, .privateOnly, false⟩

def managedField (d : Declaration) (name : String) (ty : TypeExpr) : Declaration :=
  d.field ⟨name, ty, .privateOnly, true⟩

def staticField (d : Declaration) (name : String) (ty : TypeExpr) : Declaration :=
  d.field ⟨name, ty, { isPublic := true, isStatic := true }, false⟩

/-- A record component: a private final field. -/
def component (d : Declaration) (name : String) (ty : TypeExpr) : Declaration :=
  d.field ⟨name, ty, { isPrivate := true, isFinal := true }, false⟩

/-! ## Accessors -/

def isBoolean (ty : TypeExpr) : Bool :=
  ty.raw? = some PrimitiveKind.bool.primitiveId || ty.raw? = some PrimitiveKind.bool.wrapperId

def getterName (f : Field) : String :=
  (if isBoolean f.type then "is" else "get") ++ capitalize f.name

def setterName (f : Field) : String := "set" ++ capitalize f.name

/-- Public method that reads the field's slot. -/
def getterOf (f : Field) : Method :=
  ⟨getterName f, [], some f.type, .publicOnly, some (MethodBody.readSlot f.name)⟩

/-- Public method that writes the field's slot. -/
def setterOf (f : Field) : Method :=
  ⟨setterName f, [f.type], none, .publicOnly, some (MethodBody.writeSlot f.name)⟩

/-- A field with a getter and a setter. -/
def accessorField (d : Declaration) (f : Field) : Declaration :=
  ((d.field f).method (getterOf f)).method (setterOf f)

/-- A private field with a getter and a setter. -/
def accessor (d : Declaration) (name : String) (ty : TypeExpr) : Declaration :=
  d.accessorField ⟨name, ty, .privateOnly, false⟩

/-- A private field with a getter only. -/
def readOnly (d : Declaration) (name : String) (ty : TypeExpr) : Declaration :=
  let f : Field := ⟨name, ty, .privateOnly, false⟩
  (d.field f).method (getterOf f)

/-! ## Finishing -/

/-- Constructor over all components of a record. -/
def componentConstructor (c : Class) : Constructor :=
  ⟨c.instanceFields.map fun f => (f.name, f.type), .publicOnly, none⟩

def build (d : Declaration) : Except Error Class :=
  let c := d.draft
  match c.kind with
  | .record =>
    if c.instanceFields.isEmpty then
      .error (.invalidDeclaration (.recordWithoutComponents c.id))
    else if c.canonicalConstructor?.isSome then .ok c
    else .ok { c with constructors := c.constructors ++ [componentConstructor c] }
  | .enumeration constants =>
    if constants.isEmpty then .error (.invalidDeclaration (.enumWithoutConstants c.id))
    else .ok c
  | _ => .ok c

end Declaration
end Introspect
