import Introspect.Models.Initialization

/-!
Finding a property of a model by its name.

Object and generic models find the properties of their scan. Lists and arrays have a property for every
index, maps one for every text that their key model reads; those are made when they are asked for.
-/

namespace Introspect

open Text Registry

/-- The index that a name writes: ASCII digits only, with a value at least two below the size bound, so
that the position behind it is a size. -/
def indexOfName? (name : String) : Option Nat :=
  (natOfChars? name.toList).filter (· < Config.sizeBound - 1)

/-- The text of a key that was read from `name`; the name itself when the key cannot be written. -/
def keyName (codec : Codec) (name : String) (key : Value) : String :=
  match codec.encode key with
  | .ok text => text
  | .error _ => name

namespace Model

/-- The property of an index, with the growth limit in force now. -/
def itemProperty? (m : Model) (name : String) : RegistryM (Option Property) := do
  match indexOfName? name with
  | none => return none
  | some index =>
    match (← m.parameters).head? with
    | none => return none
    | some item => do
      requireLive
      return some (.ofIndex item index (← get).config.growthLimit)

/-- The property of a key. A text that is no key has none. -/
def entryProperty? (m : Model) (name : String) : RegistryM (Option Property) := do
  match ← m.parameters with
  | [key, value] =>
    match key.codec with
    | none => return none
    | some codec =>
      match codec.decode name with
      | .ok k => return some (.ofKey value (keyName codec name k) k)
      | .error e => do
        log .trace ("[model] " ++ m.type.display ++ ": no key for " ++ quoted name ++ ": " ++
          e.message)
        return none
  | _ => return none

/-- The property of the name, if there is one. -/
def property? (m : Model) (name : String) : RegistryM (Option Property) := do
  match m.kind with
  | .scalar => return none
  | .object | .generic => return (← m.properties).find? (·.name = name)
  | .list | .array => m.itemProperty? name
  | .map => m.entryProperty? name

end Model
end Introspect
