import Introspect.Models.Scan

/-!
Initialization: giving a cached model its properties and parameters.

A model is initialized at most once. A failed initialization leaves it as it was, so that it can be tried
again.
-/

namespace Introspect

open Text Registry

namespace Model

/-- The type argument that the model's type supplies to `target`; `Object` when it supplies none. -/
def argument (m : Model) (target : ClassId) (index : Nat) : RegistryM TypeExpr := do
  let args ← ofExcept ((← get).classes.collectParameters m.type target)
  match args[index]? with
  | some arg => onTable (ClassTable.resolve arg m.type)
  | none => return .object

def typeArguments (m : Model) : List TypeExpr :=
  match m.type with
  | .apply _ args => args
  | _ => []

/-- Component type of an array. -/
def component (m : Model) : RegistryM TypeExpr :=
  match m.cls.kind with
  | .array component => onTable (ClassTable.resolve component m.type)
  | _ => return .object

/-- What the model consists of, by its kind. -/
def assemble (m : Model) : RegistryM Contents := do
  match m.kind with
  | .scalar => return ⟨[], []⟩
  | .object => return ⟨← scan m.cls m.type, []⟩
  | .generic => do
    let parameters ← m.typeArguments.mapM modelFor
    return ⟨← scan m.cls m.type, parameters⟩
  | .list => do
    let item ← m.argument .list 0
    return ⟨[], [← modelFor item]⟩
  | .map => do
    let key ← m.argument .map 0
    let value ← m.argument .map 1
    return ⟨[], [← modelFor key, ← modelFor value]⟩
  | .array => do
    let component ← m.component
    return ⟨[], [← modelFor component]⟩

def build (m : Model) : RegistryM Contents := do
  requireLive
  let contents ← m.assemble
  if (← get).config.logScans then
    log .debug ("[model] initialized " ++ m.type.display ++ " as " ++ m.kind.label ++ " (" ++
      decimal contents.properties.length ++ " properties, " ++
      decimal contents.parameters.length ++ " parameters)")
  return contents

def initializationFailure (m : Model) (e : Error) : String :=
  "[model] failed to initialize " ++ m.type.display ++ ": " ++ e.message

/-- The contents of the model, built on first use. -/
def getContents (m : Model) : RegistryM Contents := fun r =>
  match r.contents? m with
  | some c => .ok c r
  | none =>
    match m.build r with
    | .ok c r => .ok c { r with contents := r.contents.insert m.id c }
    | .error e r => .error e (r.logged .error (m.initializationFailure e))

/-- Initializes the model. -/
def init (m : Model) : RegistryM Unit := discard m.getContents

/-- Properties in order of their names; none for scalars and containers. -/
def properties (m : Model) : RegistryM (List Property) := return (← m.getContents).properties

/-- Item of lists and arrays, key and value of maps, arguments of generics. -/
def parameters (m : Model) : RegistryM (List Model) := return (← m.getContents).parameters

end Model

namespace Registry

/-- The initialized model of a type. Open types stand for their bounds. -/
def ofType (ty : TypeExpr) : RegistryM Model := do
  let concrete ← onTable (ClassTable.resolve ty ty)
  let m ← modelFor concrete
  m.init
  return m

/-- The initialized model of a class. -/
def of (id : ClassId) : RegistryM Model := ofType (.named id)

/-- The initialized model of a value's class; none for null. -/
def ofValue (v : Value) : RegistryM (Option Model) :=
  match v.runtimeClass? with
  | some id => return some (← of id)
  | none => return none

end Registry
end Introspect
