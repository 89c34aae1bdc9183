import Introspect.Classes.Class

/-!
Ready-made bodies of methods and constructors.
-/

namespace Introspect

namespace MethodBody

/-- The value of a slot of the receiver; null when there is no such slot. -/
def readSlot (name : String) : MethodBody := fun this _ => do
  let ref ← ofExcept this.asObject
  return (← get).slotOrNull ref name

/-- Stores the first argument, or null, in a slot of the receiver. -/
def writeSlot (name : String) : MethodBody := fun this args => do
  let ref ← ofExcept this.asObject
  modify (·.setSlot ref name (args.head?.getD .null))
  return .null

def constant (v : Value) : MethodBody := fun _ _ => pure v

def receiver : MethodBody := fun this _ => pure this

def argument (index : Nat) : MethodBody := fun _ args => pure (args[index]?.getD .null)

def failing (text : String) : MethodBody := fun _ _ => throw (.internal (.failure text))

end MethodBody

namespace ConstructorBody

/-- An object whose slots are exactly the named arguments. -/
def namedSlots (names : List String) : ConstructorBody := fun cls args =>
  modifyGet fun h => h.allocObject cls (.ofList (names.zip args))

def constant (v : Value) : ConstructorBody := fun _ _ => pure v

def failing (text : String) : ConstructorBody := fun _ _ => throw (.internal (.failure text))

end ConstructorBody
end Introspect
