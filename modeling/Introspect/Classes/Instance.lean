import Introspect.Classes.Members
import Introspect.Classes.Supertypes

/-!
Instances of declared classes: default values, instantiation, construction and virtual dispatch.
-/

namespace Introspect
namespace ClassTable

def allocHolder (v : Value) : HeapM Value := modifyGet fun h => h.allocHolder v

/-- What a slot of type `ty` starts with: the zero of a strict primitive, the first constant of an
enumeration, a new holder of null for the holder class itself, and else null. -/
def defaultValue (t : ClassTable) (ty : TypeExpr) : HeapM Value :=
  match ty.raw?.bind t.find? with
  | none => pure .null
  | some c =>
    match c.kind with
    | .primitive kind false => pure (Value.zero kind)
    | .enumeration constants =>
      match constants with
      | constant :: _ => pure (.enumConstant c.id constant)
      | [] => pure .null
    | _ => if c.id = .holder then allocHolder .null else pure .null

/-- Adds the default of each field whose name is not there yet. -/
def addDefaults (t : ClassTable) (slots : Dict String Value) :
    List Field → HeapM (Dict String Value)
  | [] => pure slots
  | f :: fs =>
    if slots.contains f.name then t.addDefaults slots fs
    else do
      let v ← t.defaultValue f.type
      t.addDefaults (slots.insert f.name v) fs

/-- Instance fields along a superclass chain, nearest class first. -/
def chainFields (chain : List Class) : List Field := chain.flatMap Class.instanceFields

def instantiatePlain (t : ClassTable) (c : Class) : HeapM Value :=
  if c.id = .string then pure (.text "")
  else if c.id = .holder then allocHolder .null
  else if t.isAssignable .list c.id then modifyGet fun h => h.allocList c.id []
  else if t.isAssignable .map c.id then modifyGet fun h => h.allocMap c.id .empty
  else do
    let chain ← ofExcept (t.superclassChain c)
    let slots ← t.addDefaults .empty (chainFields chain)
    modifyGet fun h => h.allocObject c.id slots

/-- New instance with every slot at its default. -/
def instantiate (t : ClassTable) (id : ClassId) : HeapM Value := do
  let c ← ofExcept (t.lookup id)
  match c.kind with
  | .primitive kind _ => pure (Value.zero kind)
  | .enumeration _ => t.defaultValue (.named id)
  | .array _ => modifyGet fun h => h.allocArray id []
  | .interface => throw (.invalidDeclaration (.interfaceInstance id))
  | .plain | .record =>
    if c.modifiers.isAbstract then throw (.invalidDeclaration (.abstractInstance id))
    else t.instantiatePlain c

/-- Writes each argument to the slot named after its parameter. -/
def writeSlots (ref : Ref) : List (String × Value) → Heap → Heap
  | [], h => h
  | (name, v) :: rest, h => writeSlots ref rest (h.setSlot ref name v)

def runConstructor (t : ClassTable) (c : Class) (k : Constructor) (args : List Value) :
    HeapM Value :=
  match k.body with
  | some body => body c.id args
  | none => do
    let instance_ ← t.instantiate c.id
    let ref ← ofExcept instance_.asObject
    modify (writeSlots ref ((k.params.map (·.1)).zip args))
    return instance_

/-- Runs the constructor with as many parameters as there are arguments. -/
def construct (t : ClassTable) (id : ClassId) (args : List Value) : HeapM Value := do
  let c ← ofExcept (t.lookup id)
  match c.constructor? args.length with
  | some k => t.runConstructor c k args
  | none =>
    if args.isEmpty then t.instantiate id
    else throw (.noSuchMethod id.name "<init>" args.length)

/-- First body of the method among the classes. -/
def firstBody (name : String) (arity : Nat) (cs : List Class) : Option MethodBody :=
  cs.findSome? fun c => (c.method? name arity).bind (·.body)

/-- The most specific implementation for the receiver's class; none when the class is undeclared. -/
def findMethod (t : ClassTable) (receiver : Value) (name : String) (arity : Nat) :
    Except Error (Option MethodBody) :=
  match receiver.runtimeClass? with
  | none => .ok none
  | some runtime =>
    if t.contains runtime then (t.supertypes runtime).map (firstBody name arity) else .ok none

/-- Calls a method, dispatched on the receiver's class. -/
def invoke (t : ClassTable) (receiver : Value) (name : String) (args : List Value) :
    HeapM Value := do
  match ← ofExcept (t.findMethod receiver name args.length) with
  | some body => body receiver args
  | none => throw (.noSuchMethod receiver.typeName name args.length)

end ClassTable
end Introspect
