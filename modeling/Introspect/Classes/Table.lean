import Introspect.Classes.Class

/-!
The table of declared classes.

A table only grows: `define` refuses an id that is taken, and `arrayOf` interns one class for each array
component. Every table that `builtin` grows into holds the built-in classes.
-/

namespace Introspect

structure ClassTable where
  /-- Latest declaration first. -/
  classes : List Class
  deriving Inhabited

/-- Computations that may grow the table. What they added before a failure stays. -/
abbrev TableM := EStateM Error ClassTable

/-- Classes other than `Object`, interfaces and strict primitives extend `Object`. -/
def Class.normalize (c : Class) : Class :=
  if c.superclass.isNone && c.id ≠ .object && !c.isInterface && !c.isStrictPrimitive then
    { c with superclass := some .object }
  else c

namespace ClassTable

def find? (t : ClassTable) (id : ClassId) : Option Class := t.classes.find? (·.id = id)

def contains (t : ClassTable) (id : ClassId) : Bool := (t.find? id).isSome

def size (t : ClassTable) : Nat := t.classes.length

def lookup (t : ClassTable) (id : ClassId) : Except Error Class :=
  match t.find? id with
  | some c => .ok c
  | none => .error (.unknownClass id)

/-! ## Built-in classes -/

def publicFinal : Modifiers := { isPublic := true, isFinal := true }

def generic (id : ClassId) (kind : ClassKind) (params : List String) (interfaces : List TypeExpr) :
    Class :=
  { Class.bare id kind with typeParams := params.map fun p => ⟨p, []⟩, interfaces }

def primitiveClasses (k : PrimitiveKind) : List Class :=
  [.bare k.primitiveId (.primitive k false),
   { Class.bare k.wrapperId (.primitive k true) with modifiers := publicFinal }]

def builtinClasses : List Class :=
  [.bare .object .plain, { Class.bare .string .plain with modifiers := publicFinal }] ++
  PrimitiveKind.all.flatMap primitiveClasses ++
  [generic .list .interface ["E"] [],
   generic .arrayList .plain ["E"] [.apply .list [.var .arrayList "E"]],
   generic .map .interface ["K", "V"] [],
   generic .hashMap .plain ["K", "V"] [.apply .map [.var .hashMap "K", .var .hashMap "V"]],
   generic .holder .plain ["V"] []]

def builtin : ClassTable := ⟨builtinClasses.map Class.normalize⟩

/-! ## Growing -/

def define (t : ClassTable) (c : Class) : Except Error ClassTable :=
  if t.contains c.id then .error (.duplicateClass c.id) else .ok ⟨c.normalize :: t.classes⟩

def arrayId (component : TypeExpr) : ClassId := ⟨component.display ++ "[]"⟩

def arrayClass (component : TypeExpr) : Class :=
  { Class.bare (arrayId component) (.array component) with
    modifiers := publicFinal, superclass := some .object }

/-- The table with a class under the id; a class that is there stays. -/
def intern (t : ClassTable) (c : Class) : ClassTable :=
  if t.contains c.id then t else ⟨c :: t.classes⟩

/-- The array class of a component, created on first use. The component's own class must be declared. -/
def arrayOf (component : TypeExpr) : TableM ClassId := fun t =>
  match component.raw?.map t.lookup with
  | some (.error e) => .error e t
  | _ => .ok (arrayId component) (t.intern (arrayClass component))

end ClassTable
end Introspect
