import Introspect.Models.Registry

/-!
The property scan of object and generic models.

Two sources give properties, in this order, and the first property of a name wins:

* accessor pairs: a getter and a setter of the same property name, found across the supertypes of the
  scanned class;
* the fields declared along its superclass chain.

The result is in order of the names.
-/

namespace Introspect

open Registry

/-! ## Collected properties -/

/-- Adds a property in order of names; a name that is taken stays as it is. -/
def insertProperty (p : Property) : List Property → List Property
  | [] => [p]
  | q :: qs =>
    if p.name < q.name then p :: q :: qs
    else if p.name = q.name then q :: qs
    else q :: insertProperty p qs

def hasProperty (ps : List Property) (name : String) : Bool := ps.any (·.name = name)

/-! ## Scan -/

/-- What one scan works on: type variables are bound by the site. -/
structure Scan where
  owner : Class
  site : TypeExpr
  config : Config
  deriving Inhabited

namespace Scan

def resolve (s : Scan) (ty : TypeExpr) : RegistryM TypeExpr :=
  onTable (ClassTable.resolve ty s.site)

def trace (s : Scan) (text : String) : RegistryM Unit :=
  log .trace ("[model] " ++ s.site.display ++ ": " ++ text)

def dispatch (s : Scan) (m : Method) : Dispatch :=
  ⟨m.name, m.body, s.owner.id.name ++ "." ++ m.name⟩

/-- The first field of the name among the classes is transient. -/
def isTransientIn (types : List Class) (name : String) : Bool :=
  ((types.findSome? (·.field? name)).map Field.isTransient).getD false

/-- Adds the property of a getter and a setter, unless the setter's parameter cannot take what the getter
gives. -/
def addAccessorPair (s : Scan) (types : List Class) (ps : List Property) (pair : AccessorPair) :
    RegistryM (List Property) := do
  match pair.getter, pair.setter with
  | some getter, some setter =>
    match getter.returns, setter.params.head? with
    | some returns, some param => do
      let valueType ← s.resolve returns
      let paramType ← s.resolve param
      let valueRaw := valueType.rawClass
      let paramRaw := paramType.rawClass
      if (← get).classes.isAssignable paramRaw valueRaw then do
        let model ← modelFor valueType
        return insertProperty
          ⟨model, pair.property, isTransientIn types pair.property,
            .accessors (s.dispatch getter) (s.dispatch setter)⟩ ps
      else do
        s.trace ("dropping " ++ pair.property ++ " (" ++ valueRaw.name ++ " is not assignable to " ++
          paramRaw.name ++ ")")
        return ps
    | _, _ => return ps
  | _, _ => do
    s.trace (pair.property ++ " has no accessor pair")
    return ps

/-- Public and managed fields are visible; private ones too when a record is scanned. -/
def isVisible (s : Scan) (f : Field) : Bool :=
  f.modifiers.isPublic || f.managed || (s.owner.isRecord && f.modifiers.isPrivate)

/-- The property of a field that holds an observable holder; its value model is that of what is held. -/
def holderProperty (f : Field) (fieldType : TypeExpr) : RegistryM Property := do
  let args ← ofExcept ((← get).classes.collectParameters fieldType .holder)
  let valueType ←
    match args.head? with
    | some arg => onTable (ClassTable.resolve arg fieldType)
    | none => pure .object
  let model ← modelFor valueType
  return ⟨model, f.name, f.isTransient, .holder f.name⟩

def slotAccess (s : Scan) (f : Field) : Access :=
  if s.owner.isRecord then .component f.name
  else if f.isFinal then .finalSlot f.name
  else .slot f.name

/-- The property of a visible field; none for a final field of an atomic type outside records. -/
def fieldProperty? (s : Scan) (f : Field) : RegistryM (Option Property) := do
  let fieldType ← s.resolve f.type
  if (← get).classes.isAssignable .holder fieldType.rawClass then
    return some (← holderProperty f fieldType)
  else do
    let model ← modelFor fieldType
    if model.isAtomic && f.isFinal && !s.owner.isRecord then do
      s.trace ("skipping final field " ++ f.name)
      return none
    else return some ⟨model, f.name, f.isTransient, s.slotAccess f⟩

def addField (s : Scan) (ps : List Property) (f : Field) : RegistryM (List Property) := do
  if f.modifiers.isNative || hasProperty ps f.name || !s.isVisible f then return ps
  else
    match ← s.fieldProperty? f with
    | some p => return insertProperty p ps
    | none => return ps

/-- Adds the accessor pairs in the given order. -/
def addAccessorPairs (s : Scan) (types : List Class) (pairs : List AccessorPair) :
    RegistryM (List Property) :=
  pairs.foldlM (s.addAccessorPair types) []

/-- Adds the fields along the superclass chain, nearest class first. -/
def addFields (s : Scan) (ps : List Property) : RegistryM (List Property) := do
  let t := (← get).classes
  let fields := (t.chainWithin (t.size + 1) s.owner).flatMap Class.instanceFields
  let ps ← fields.foldlM s.addField ps
  discard (ofExcept (t.superclassChain s.owner))
  return ps

/-- The properties of the owner; the accessor pairs are visited as arranged. -/
def runVia (s : Scan) (arrange : List AccessorPair → List AccessorPair) : RegistryM (List Property) := do
  let types ← ofExcept ((← get).classes.supertypes s.owner.id)
  let pairs := arrange (accessorPairs (types.flatMap (·.accessors s.config)))
  let ps ← s.addAccessorPairs types pairs
  let ps ← s.addFields ps
  if s.config.logScans then
    log .debug ("[model] scanned " ++ s.site.display ++ ": " ++ Text.sequence (ps.map (·.name)))
  return ps

/-- The properties of the owner; the accessor pairs are visited in the order of the registry. -/
def run (s : Scan) : RegistryM (List Property) := do
  s.runVia (← get).order.arrange

end Scan

/-- The properties of a class whose type variables are bound by the site, in order of their names. -/
def scan (owner : Class) (site : TypeExpr) : RegistryM (List Property) := do
  Scan.run ⟨owner, site, (← get).config⟩

end Introspect
