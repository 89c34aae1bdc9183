import Introspect.Values.Codec

/-!
Models and their properties.

A `Model` is the structural description of one type. What a model is made of never changes; the
properties and parameters it gets when it is initialized are kept by the registry (`Contents`).

A `Property` is one named slot of a model. Its `Access` says where the value is kept: behind a pair of
accessor methods, in a slot, in a record component, in an observable holder, at an index or under a key.
-/

namespace Introspect

inductive ModelKind where
  /-- Atomic value with a codec, without properties. -/
  | scalar
  /-- Described by accessor pairs and fields. -/
  | object
  /-- Indexed sequence, a property for every index. -/
  | list
  /-- A property for every key. -/
  | map
  /-- Array, indexed like a list. -/
  | array
  /-- Parameterized type that is no container. -/
  | generic
  deriving DecidableEq, Repr, Inhabited

namespace ModelKind

def label : ModelKind → String
  | .scalar => "Scalar"
  | .object => "Object"
  | .list => "List"
  | .map => "Map"
  | .array => "Array"
  | .generic => "Generic"

/-- The kinds whose models are told apart by type arguments. -/
def hasArguments : ModelKind → Bool
  | .list | .map | .generic => true
  | .scalar | .object | .array => false

end ModelKind

/-- Raw class and resolved type arguments; none for scalars, objects and arrays. -/
structure ModelKey where
  raw : ClassId
  args : List TypeExpr
  deriving DecidableEq, Repr, Inhabited

structure Model where
  /-- Place in its registry; two models of a registry are the same when their places are. -/
  id : Nat
  key : ModelKey
  type : TypeExpr
  cls : Class
  kind : ModelKind
  codec : Option Codec
  deriving Inhabited

namespace Model

def raw (m : Model) : ClassId := m.key.raw

def displayName (m : Model) : String := m.cls.id.simpleName

/-- Scalars and arrays. -/
def isAtomic (m : Model) : Bool := m.codec.isSome || m.cls.isArray

def isContainer (m : Model) : Bool := m.kind = .list || m.kind = .map || m.kind = .array

/-- A property of this model may hold null. -/
def isNullable (m : Model) : Bool := m.cls.isNullable

/-- Text of a value by the model's codec. -/
def encode (m : Model) (v : Value) : Except Error String :=
  match m.codec with
  | some codec => codec.encode v
  | none => .error (.typeMismatch "atomic type" m.type.display)

/-- Value of a text by the model's codec. -/
def decode (m : Model) (s : String) : Except Error Value :=
  match m.codec with
  | some codec => codec.decode s
  | none => .error (.codec m.type.display s)

end Model

/-- A method found on the receiver's class when it is called; the declared body stands in where the
receiver's class has none. -/
structure Dispatch where
  method : String
  declared : Option MethodBody
  /-- Owner and method, for messages. -/
  member : String
  deriving Inhabited

inductive Access where
  | accessors (getter setter : Dispatch)
  | slot (name : String)
  /-- A final slot: writes do nothing. -/
  | finalSlot (name : String)
  /-- A write makes a copy of the record. -/
  | component (name : String)
  | holder (name : String)
  /-- An item; writes append at most `limit` slots. -/
  | index (index : Nat) (limit : Option Nat)
  | entry (key : Value)
  deriving Inhabited

structure Property where
  /-- Model of the values. -/
  model : Model
  name : String
  /-- Left out of persistence. -/
  isTransient : Bool
  access : Access
  deriving Inhabited

namespace Property

def isObservable (p : Property) : Bool :=
  match p.access with
  | .holder _ => true
  | _ => false

/-- Same name and same value model. -/
def same (p q : Property) : Bool := p.name = q.name && p.model.id = q.model.id

/-- Item of a list or array. -/
def ofIndex (item : Model) (index : Nat) (limit : Option Nat) : Property :=
  ⟨item, Text.decimal index, false, .index index limit⟩

/-- Entry of a map, named by the text of its key. -/
def ofKey (value : Model) (name : String) (key : Value) : Property :=
  ⟨value, name, false, .entry key⟩

end Property

/-- What initialization gives a model. -/
structure Contents where
  /-- In order of their names. -/
  properties : List Property
  /-- Item model; key and value models; or the models of the type arguments. -/
  parameters : List Model
  deriving Inhabited

end Introspect
