import Introspect.Classes.Instance
import Introspect.Models.Lookup
import Introspect.Store

/-!
Reading, writing and observing properties of instances.

* A null instance and an absent property read as null, ignore writes and never signal.
* A write of null to a model that is not nullable is ignored; a value that the model does not accept is
  refused.
* A write answers the instance: the same one, or a copy where the instance is a record.
-/

namespace Introspect

open Text Store

/-! ## Accessor methods -/

/-- The implementation on the receiver's class, else the declared one. -/
def Dispatch.body (d : Dispatch) (this : Value) (arity : Nat) : StoreM MethodBody := do
  onRegistry Registry.requireLive
  match ← ofExcept ((← get).registry.classes.findMethod this d.method arity) with
  | some body => return body
  | none =>
    match d.declared with
    | some body => return body
    | none => throw (.introspection d.member .noImplementation)

def Dispatch.call (d : Dispatch) (this : Value) (args : List Value) : StoreM Value := do
  let body ← d.body this args.length
  onHeap (body this args)

/-! ## Holders -/

/-- The holder in a slot; none when the slot is null or missing. -/
def holderIn (name : String) (this : Value) : HeapM (Option Nat) := do
  let ref ← ofExcept this.asObject
  match (← get).slotOrNull ref name with
  | .null => return none
  | v => return some (← ofExcept v.asHolder)

def readHolder (name : String) (this : Value) : HeapM Value := do
  match ← holderIn name this with
  | some index => return (← get).held index
  | none => return .null

/-- Writes through the holder in the slot, or puts a new holder there. -/
def writeHolder (name : String) (this v : Value) : HeapM Value := do
  match ← holderIn name this with
  | some index => modify (·.setHeld index v)
  | none => do
    let ref ← ofExcept this.asObject
    let holder ← ClassTable.allocHolder v
    modify (·.setSlot ref name holder)
  return this

def observeHolder (name : String) (this : Value) : HeapM Signal := do
  match ← holderIn name this with
  | some index => modifyGet (·.subscribe index)
  | none => return .never

/-! ## Items and entries -/

def readItem (index : Nat) (this : Value) : HeapM Value := do
  let ref ← ofExcept this.asSequence
  return ((← get).items ref)[index]?.getD .null

/-- Refuses a write that would append more slots than the limit. -/
def checkGrowth (ref : Ref) (length index : Nat) (limit : Option Nat) : RegistryM Unit := do
  if length ≤ index then
    let growth := index + 1 - length
    let span := " from " ++ decimal length ++ " to " ++ decimal (index + 1) ++ " slots"
    match limit.filter (· < growth) with
    | some limit => do
      Registry.log .warn ("[model] refusing to grow " ++ ref.cls.name ++ span ++ " (limit " ++
        decimal limit ++ ")")
      throw (.growthLimit index limit)
    | none =>
      if 1 < growth then Registry.log .trace ("[model] growing " ++ ref.cls.name ++ span)

def writeItem (index : Nat) (limit : Option Nat) (this v : Value) : StoreM Value := do
  let ref ← ofExcept this.asSequence
  let length := ((← get).heap.items ref).length
  onRegistry (checkGrowth ref length index limit)
  let heap ← ofExcept ((← get).heap.setItem ref index v)
  modify fun s => { s with heap }
  return this

def readEntry (key this : Value) : HeapM Value := do
  let ref ← ofExcept this.asMap
  return ((← get).valueAt? ref key).getD .null

def writeEntry (key this v : Value) : HeapM Value := do
  let ref ← ofExcept this.asMap
  modify (·.insertEntry ref key v)
  return this

/-! ## Slots and components -/

def readSlot (name : String) (this : Value) : HeapM Value := do
  let ref ← ofExcept this.asObject
  return (← get).slotOrNull ref name

def writeSlot (name : String) (this v : Value) : HeapM Value := do
  let ref ← ofExcept this.asObject
  modify (·.setSlot ref name v)
  return this

/-- The arguments that rebuild a record with one component replaced. -/
def copyArguments (k : Constructor) (h : Heap) (ref : Ref) (name : String) (v : Value) :
    List Value :=
  k.params.map fun p => if p.1 = name then v else h.slotOrNull ref p.1

/-- A copy of the record, made by its canonical constructor, with one component replaced. -/
def writeComponent (name : String) (this v : Value) : StoreM Value := do
  onRegistry Registry.requireLive
  let ref ← ofExcept this.asObject
  let t := (← get).registry.classes
  let c ← ofExcept (t.lookup ref.cls)
  match c.canonicalConstructor? with
  | none => throw (.introspection (c.id.name ++ ".<init>") .noCanonicalConstructor)
  | some k => do
    let args := copyArguments k (← get).heap ref name v
    onHeap (t.runConstructor c k args)

/-! ## Properties -/

namespace Property

def read (p : Property) (this : Value) : StoreM Value :=
  match p.access with
  | .accessors getter _ => getter.call this []
  | .slot name | .finalSlot name | .component name => onHeap (Introspect.readSlot name this)
  | .holder name => onHeap (readHolder name this)
  | .index index _ => onHeap (readItem index this)
  | .entry key => onHeap (readEntry key this)

def write (p : Property) (this v : Value) : StoreM Value :=
  match p.access with
  | .accessors _ setter => do
    discard (setter.call this [v])
    return this
  | .slot name => onHeap (Introspect.writeSlot name this v)
  | .finalSlot _ => pure this
  | .component name => writeComponent name this v
  | .holder name => onHeap (writeHolder name this v)
  | .index index limit => Introspect.writeItem index limit this v
  | .entry key => onHeap (writeEntry key this v)

def observe (p : Property) (this : Value) : StoreM Signal :=
  match p.access with
  | .holder name => onHeap (observeHolder name this)
  | _ => pure .never

end Property

/-! ## Access through an optional property -/

def getProperty (this : Value) : Option Property → StoreM Value
  | some p => if this.isNull then pure .null else p.read this
  | none => pure .null

/-- A write that is ignored: there is nothing to write to, or null meets a model that is not nullable. -/
def ignoresWrite (p : Property) (this v : Value) : Bool :=
  this.isNull || (v.isNull && !p.model.isNullable)

def setProperty (this : Value) (p : Option Property) (v : Value) : StoreM Value := do
  match p with
  | none => return this
  | some p =>
    if ignoresWrite p this v then return this
    else if (← get).registry.accepts p.model v then p.write this v
    else throw (v.mismatch p.model.type.display)

def observeProperty (this : Value) : Option Property → StoreM Signal
  | some p => if this.isNull then pure .never else p.observe this
  | none => pure .never

namespace Model

def get (m : Model) (this : Value) (name : String) : StoreM Value := do
  getProperty this (← onRegistry (m.property? name))

def set (m : Model) (this : Value) (name : String) (v : Value) : StoreM Value := do
  setProperty this (← onRegistry (m.property? name)) v

def observe (m : Model) (this : Value) (name : String) : StoreM Signal := do
  observeProperty this (← onRegistry (m.property? name))

end Model
end Introspect
