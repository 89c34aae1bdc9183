import Introspect.Classes.Modifiers
import Introspect.Values.Heap

/-!
Declared classes: their kind, type parameters, supertypes and members.

Bodies of methods and constructors are computations on the heap.
-/

namespace Introspect

/-- Implementation of a method: receiver and arguments give a result. -/
abbrev MethodBody := Value → List Value → HeapM Value

/-- Implementation of a constructor: class and arguments give a new instance. -/
abbrev ConstructorBody := ClassId → List Value → HeapM Value

inductive ClassKind where
  /-- A primitive, or its wrapper when `nullable`. -/
  | primitive (kind : PrimitiveKind) (nullable : Bool)
  | enumeration (constants : List String)
  /-- Immutable: components are captured by the canonical constructor. -/
  | record
  | interface
  | plain
  | array (component : TypeExpr)
  deriving DecidableEq, Repr, Inhabited

structure TypeParam where
  name : String
  bounds : List TypeExpr
  deriving DecidableEq, Repr, Inhabited

structure Method where
  name : String
  params : List TypeExpr
  /-- None for a method without result. -/
  returns : Option TypeExpr
  modifiers : Modifiers
  /-- None for an abstract declaration. -/
  body : Option MethodBody
  deriving Inhabited

namespace Method

def isVoid (m : Method) : Bool := m.returns.isNone

def arity (m : Method) : Nat := m.params.length

end Method

structure Field where
  name : String
  type : TypeExpr
  modifiers : Modifiers
  /-- Shown by models even when it is not public. -/
  managed : Bool
  deriving DecidableEq, Repr, Inhabited

namespace Field

def isFinal (f : Field) : Bool := f.modifiers.isFinal

def isTransient (f : Field) : Bool := f.modifiers.isTransient

end Field

/-- Without a body, construction makes an instance and writes each argument to the slot named after its
parameter. -/
structure Constructor where
  params : List (String × TypeExpr)
  modifiers : Modifiers
  body : Option ConstructorBody
  deriving Inhabited

structure Class where
  id : ClassId
  kind : ClassKind
  modifiers : Modifiers
  typeParams : List TypeParam
  superclass : Option TypeExpr
  interfaces : List TypeExpr
  methods : List Method
  fields : List Field
  constructors : List Constructor
  /-- Generated subclass; its models are those of the superclass. -/
  synthetic : Bool
  /-- Runtime proxy; its methods are never scanned. -/
  proxy : Bool
  /-- Members may be introspected. -/
  accessible : Bool
  deriving Inhabited

namespace Class

/-- A public class without members or supertypes. -/
def bare (id : ClassId) (kind : ClassKind) : Class where
  id := id
  kind := kind
  modifiers := .publicOnly
  typeParams := []
  superclass := none
  interfaces := []
  methods := []
  fields := []
  constructors := []
  synthetic := false
  proxy := false
  accessible := true

def isRecord (c : Class) : Bool := c.kind = .record

def isInterface (c : Class) : Bool := c.kind = .interface

def isEnum (c : Class) : Bool :=
  match c.kind with
  | .enumeration _ => true
  | _ => false

def isArray (c : Class) : Bool :=
  match c.kind with
  | .array _ => true
  | _ => false

/-- A primitive whose slots never hold null. -/
def isStrictPrimitive (c : Class) : Bool :=
  match c.kind with
  | .primitive _ false => true
  | _ => false

def isAbstract (c : Class) : Bool := c.isInterface || c.modifiers.isAbstract

/-- Kind of a primitive or of a wrapper. -/
def primitiveKind? (c : Class) : Option PrimitiveKind :=
  match c.kind with
  | .primitive kind _ => some kind
  | _ => none

/-- A slot of the class may hold null. -/
def isNullable (c : Class) : Bool := !c.isStrictPrimitive && !c.isEnum

def superclassId? (c : Class) : Option ClassId := c.superclass.bind TypeExpr.raw?

/-- Superclass first, then the interfaces in declaration order. -/
def supertypes (c : Class) : List TypeExpr := c.superclass.toList ++ c.interfaces

def supertypeIds (c : Class) : List ClassId := c.supertypes.filterMap TypeExpr.raw?

def typeParamIndex? (c : Class) (name : String) : Option Nat :=
  c.typeParams.findIdx? (·.name = name)

/-- Declared method by name and number of parameters. -/
def method? (c : Class) (name : String) (arity : Nat) : Option Method :=
  c.methods.find? fun m => m.name = name && m.arity = arity

def field? (c : Class) (name : String) : Option Field := c.fields.find? (·.name = name)

def instanceFields (c : Class) : List Field := c.fields.filter (!·.modifiers.isStatic)

/-- The constructor whose parameters are exactly the instance fields. -/
def canonicalConstructor? (c : Class) : Option Constructor :=
  c.constructors.find? fun k => k.params.map (·.1) = c.instanceFields.map (·.name)

/-- Constructor by number of parameters. -/
def constructor? (c : Class) (arity : Nat) : Option Constructor :=
  c.constructors.find? (·.params.length = arity)

end Class
end Introspect
