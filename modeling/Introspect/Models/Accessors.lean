import Introspect.Classes.Class
import Introspect.Config.Basic
import Introspect.Text.Casing

/-!
Accessor methods: which methods are accessors, of which properties, and how they are paired.

A scan visits the pairs in an order that is left open. Where a pair resolves to array types that were not there
before, the pairs behind it find them; so the order can be seen, and a registry has one.
-/

namespace Introspect

open Text

/-! ## Accessor names -/

inductive AccessorRole where
  | getter
  | setter
  deriving DecidableEq, Repr, Inhabited

namespace AccessorRole

/-- Number of parameters an accessor takes. -/
def arity : AccessorRole → Nat
  | .getter => 0
  | .setter => 1

end AccessorRole

/-- The part of a name behind `start`, if the name begins with it. -/
def afterStart? (start name : List Char) : Option (List Char) :=
  if start.isPrefixOf name then some (name.drop start.length) else none

/-- The role a method would have by its result, and the start its name then must have. -/
def accessorStart (m : Method) : AccessorRole × List Char :=
  if m.isVoid then (.setter, "set".toList)
  else if m.name.toList.head? = some 'i' then (.getter, "is".toList)
  else (.getter, "get".toList)

/-- Role and property name of a method that is named like an accessor: an upper-case character follows
`set`, `is` or `get`, and it is lower-cased. -/
def Method.accessor? (m : Method) : Option (AccessorRole × String) :=
  let (role, start) := accessorStart m
  if m.arity ≠ role.arity then none
  else
    match afterStart? start m.name.toList with
    | some (c :: rest) =>
      if isUppercase c then some (role, String.ofList (decapitalizeChars (c :: rest))) else none
    | _ => none

/-! ## Accessor pairs -/

/-- Static, native, bridge and synthetic methods are no accessors, private ones only if configured. -/
def isAccessorCandidate (config : Config) (m : Method) : Bool :=
  !(m.modifiers.isStatic || m.modifiers.isNative || m.modifiers.isBridge || m.modifiers.isSynthetic) &&
    (!m.modifiers.isPrivate || config.privateAccessors)

structure Accessor where
  role : AccessorRole
  property : String
  method : Method
  deriving Inhabited

/-- A property name with its first getter and its first setter. -/
structure AccessorPair where
  property : String
  getter : Option Method
  setter : Option Method
  deriving Inhabited

/-- The accessors a class declares; none when it is closed or a proxy. -/
def Class.accessors (config : Config) (c : Class) : List Accessor :=
  if c.accessible && !c.proxy then
    c.methods.filterMap fun m =>
      if isAccessorCandidate config m then m.accessor?.map fun (role, name) => ⟨role, name, m⟩
      else none
  else []

def firstAccessor? (as : List Accessor) (role : AccessorRole) (property : String) : Option Method :=
  (as.find? fun a => a.role = role && a.property = property).map (·.method)

/-- The accessors grouped by property, in order of first appearance. -/
def accessorPairs (as : List Accessor) : List AccessorPair :=
  (as.map (·.property)).eraseDups.map fun name =>
    ⟨name, firstAccessor? as .getter name, firstAccessor? as .setter name⟩

/-! ## Orders -/

/-- An order in which pairs are visited. -/
structure VisitOrder where
  arrange : List AccessorPair → List AccessorPair
  perm : ∀ pairs, (arrange pairs).Perm pairs

theorem VisitOrder.mem_arrange (order : VisitOrder) {pairs : List AccessorPair} {pair : AccessorPair} :
    pair ∈ order.arrange pairs ↔ pair ∈ pairs := (order.perm pairs).mem_iff

/-- The order of first appearance. -/
def VisitOrder.appearance : VisitOrder := ⟨id, fun pairs => .refl pairs⟩

instance : Inhabited VisitOrder := ⟨.appearance⟩

end Introspect
