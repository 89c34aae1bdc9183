import Introspect.Models.Access

/-!
Walking an instance: every property of a model with its current value.

Properties of objects come in order of their names, items in order of their indices and entries in order
of the texts of their keys. Items and entries are listed when the walk starts. The property of an object
is read only when its turn comes, after the visit before it: reading may run code that changes the heap,
or fail and end the walk there.
-/

namespace Introspect

open Store

/-- One visited property and its value. -/
structure Visit where
  property : Property
  value : Value
  deriving Inhabited

def visitProperty (this : Value) (p : Property) : StoreM Visit := return ⟨p, ← p.read this⟩

/-- Visits of the items from an index on. -/
def itemVisits (item : Model) (limit : Option Nat) (index : Nat) : List Value → List Visit
  | [] => []
  | v :: vs => ⟨.ofIndex item index limit, v⟩ :: itemVisits item limit (index + 1) vs

/-- Visit of an entry; the key must have a text. -/
def entryVisit (codec : Codec) (value : Model) (entry : Value × Value) : Except Error Visit := do
  let name ← codec.encode entry.1
  return ⟨.ofKey value name entry.1, entry.2⟩

def sortByName (vs : List Visit) : List Visit :=
  vs.mergeSort fun a b => decide (a.property.name ≤ b.property.name)

namespace Model

def walkItems (m : Model) (this : Value) : StoreM (List Visit) := do
  match (← onRegistry m.parameters).head? with
  | none => return []
  | some item => do
    onRegistry Registry.requireLive
    let limit := (← MonadState.get).registry.config.growthLimit
    let ref ← ofExcept this.asSequence
    return itemVisits item limit 0 ((← MonadState.get).heap.items ref)

def walkEntries (m : Model) (this : Value) : StoreM (List Visit) := do
  match ← onRegistry m.parameters with
  | [key, value] =>
    match key.codec with
    | none => return []
    | some codec => do
      let ref ← ofExcept this.asMap
      let entries := ((← MonadState.get).heap.entries ref).entries
      return sortByName (← ofExcept (entries.mapM (entryVisit codec value)))
  | _ => return []

/-- The visits of an instance, each still to be made; none of a null instance. -/
def visits (m : Model) (this : Value) : StoreM (List (StoreM Visit)) := do
  if this.isNull then return []
  else
    match m.kind with
    | .scalar => return []
    | .object | .generic => return (← onRegistry m.properties).map (visitProperty this)
    | .list | .array => return (← m.walkItems this).map pure
    | .map => return (← m.walkEntries this).map pure

/-- The properties of an instance with their values. -/
def walk (m : Model) (this : Value) : StoreM (List Visit) := do
  (← m.visits this).mapM fun visit => visit

end Model
end Introspect
