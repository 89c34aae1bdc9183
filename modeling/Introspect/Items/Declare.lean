import Introspect.Classes.Declaration
import Introspect.Items.Item

/-!
Declarations of annotated items.

`Item.declare` gives the declaration of a struct with named fields or of an enumeration of unit variants,
or says why there is none. Item options are checked first, then the form of the item, its supertypes and
its fields in order; of a field, the options are checked before its type is mapped.

`mapType` maps source types to type expressions. In argument position primitives become their wrappers.
-/

namespace Introspect

inductive ItemFault where
  | unknownItemOption
  | unknownFieldOption
  | unnamedFields
  | variantWithFields
  | noVariants
  | union
  | missingArgument (name : String) (needed : Nat)
  | unsupportedInteger (name : String)
  | unsupportedType
  deriving DecidableEq, Repr, Inhabited

def ItemFault.message : ItemFault → String
  | .unknownItemOption => "unsupported model option"
  | .unknownFieldOption => "unsupported model field option"
  | .unnamedFields => "Only structs with named fields are supported"
  | .variantWithFields => "Only unit variants can be declared as enum constants"
  | .noVariants => "Enum has no variants"
  | .union => "Unions are not supported"
  | .missingArgument name needed =>
    name ++ " needs " ++ Text.decimal needed ++ " type argument(s)"
  | .unsupportedInteger name =>
    "Unsupported type: " ++ name ++ ". Supported integers: i8, i16, i32, i64."
  | .unsupportedType =>
    "Unsupported type. Supported types: primitives, String, Option, Vec, maps, arrays, named types."

/-! ## Options -/

structure ItemOptions where
  name : Option String
  isRecord : Bool
  accessors : Bool
  superclass : Option SourceType
  interfaces : List SourceType
  deriving Repr, Inhabited

namespace ItemOptions

def none : ItemOptions := ⟨.none, false, false, .none, []⟩

/-- Takes one option; of a name or a superclass the last one counts. -/
def add (o : ItemOptions) : ItemOption → Except ItemFault ItemOptions
  | .name text => .ok { o with name := some text }
  | .superclass ty => .ok { o with superclass := some ty }
  | .interface ty => .ok { o with interfaces := o.interfaces ++ [ty] }
  | .flag word =>
    if word = "record" then .ok { o with isRecord := true }
    else if word = "accessors" then .ok { o with accessors := true }
    else .error .unknownItemOption

def ofList (options : List ItemOption) : Except ItemFault ItemOptions := options.foldlM add none

end ItemOptions

structure FieldOptions where
  managed : Bool
  isTransient : Bool
  readonly : Bool
  observable : Bool
  skipped : Bool
  deriving DecidableEq, Repr, Inhabited

namespace FieldOptions

def none : FieldOptions := ⟨false, false, false, false, false⟩

def add (o : FieldOptions) : ItemOption → Except ItemFault FieldOptions
  | .flag word =>
    if word = "managed" then .ok { o with managed := true }
    else if word = "transient" then .ok { o with isTransient := true }
    else if word = "readonly" then .ok { o with readonly := true }
    else if word = "observable" then .ok { o with observable := true }
    else if word = "skip" then .ok { o with skipped := true }
    else .error .unknownFieldOption
  | _ => .error .unknownFieldOption

def ofList (options : List ItemOption) : Except ItemFault FieldOptions := options.foldlM add none

end FieldOptions

/-! ## Types -/

/-- The class that is declared and the names of its type parameters. -/
structure ItemScope where
  className : ClassId
  params : List String
  deriving DecidableEq, Repr, Inhabited

/-- How the last segment of a path is understood. -/
inductive PathForm where
  | primitive (kind : PrimitiveKind)
  | text
  /-- Stands for its argument, in argument position. -/
  | nullable
  /-- Stands for its argument. -/
  | pointer
  | list
  | map
  | unsupportedInteger
  | declared
  deriving DecidableEq, Repr, Inhabited

def PathForm.ofName (name : String) : PathForm :=
  match PrimitiveKind.ofClassName? name with
  | some kind => .primitive kind
  | none =>
    if ["String", "str"].contains name then .text
    else if name = "Option" then .nullable
    else if ["Box", "Arc", "Rc"].contains name then .pointer
    else if ["Vec", "VecDeque", "LinkedList"].contains name then .list
    else if ["HashMap", "BTreeMap"].contains name then .map
    else if ["u8", "u16", "u32", "u64", "u128", "usize", "i128", "isize"].contains name then
      .unsupportedInteger
    else .declared

def primitiveType (kind : PrimitiveKind) (boxed : Bool) : TypeExpr :=
  .named (if boxed then kind.wrapperId else kind.primitiveId)

/-- The path is the bare name of a type parameter. -/
def ItemScope.isParam (scope : ItemScope) (segments : List String) (args : List SourceType) : Bool :=
  segments.length = 1 && args.isEmpty && scope.params.contains (segments.getLastD "")

mutual

/-- The type expression of a source type; `boxed` in argument position. -/
def mapType (scope : ItemScope) (boxed : Bool) : SourceType → Except ItemFault TypeExpr
  | .path segments args =>
    let name := segments.getLastD ""
    if scope.isParam segments args then .ok (.var scope.className name)
    else
      match PathForm.ofName name with
      | .primitive kind => .ok (primitiveType kind boxed)
      | .text => .ok (.named .string)
      | .nullable => mapArgument scope true name 1 0 args
      | .pointer => mapArgument scope boxed name 1 0 args
      | .list => (mapArgument scope true name 1 0 args).map .listOf
      | .map => do
        let key ← mapArgument scope true name 1 0 args
        let value ← mapArgument scope true name 2 1 args
        return .mapOf key value
      | .unsupportedInteger => .error (.unsupportedInteger name)
      | .declared =>
        if args.isEmpty then .ok (.named ⟨name⟩)
        else (mapArguments scope args).map (.apply ⟨name⟩)
  | .array element => (mapType scope false element).map .array
  | .slice element => (mapType scope false element).map .array
  | .reference target => mapType scope boxed target
  | .paren inner => mapType scope boxed inner
  | .unsupported => .error .unsupportedType

/-- The argument behind `skipped` others; `needed` counts it and all before it. -/
def mapArgument (scope : ItemScope) (boxed : Bool) (name : String) (needed : Nat) :
    Nat → List SourceType → Except ItemFault TypeExpr
  | _, [] => .error (.missingArgument name needed)
  | 0, ty :: _ => mapType scope boxed ty
  | skipped + 1, _ :: tys => mapArgument scope boxed name needed skipped tys

/-- All arguments, in argument position. -/
def mapArguments (scope : ItemScope) : List SourceType → Except ItemFault (List TypeExpr)
  | [] => .ok []
  | ty :: tys => do
    let first ← mapType scope true ty
    let rest ← mapArguments scope tys
    return first :: rest

end

/-! ## Fields -/

def fieldModifiers (isPublic : Bool) (o : FieldOptions) : Modifiers :=
  { isPublic, isPrivate := !isPublic, isFinal := o.readonly, isTransient := o.isTransient }

/-- Adds one field: a component of a record, a field with accessors where those are asked for, else a
plain field. -/
def addItemField (options : ItemOptions) (scope : ItemScope) (d : Declaration) (f : SourceField) :
    Except ItemFault Declaration := do
  let o ← FieldOptions.ofList f.options
  if o.skipped then return d
  let mapped ← mapType scope false f.type
  let ty := if o.observable then .holderOf mapped else mapped
  let name := String.ofList (plainName f.name.toList)
  if options.isRecord then return d.component name ty
  let field : Field := ⟨name, ty, fieldModifiers f.isPublic o, o.managed⟩
  if options.accessors && !f.isPublic && !o.managed then return d.accessorField field
  else return d.field field

/-! ## Items -/

def declareStruct (options : ItemOptions) (scope : ItemScope) (fields : List SourceField) :
    Except ItemFault Declaration := do
  let id := scope.className
  let d : Declaration := if options.isRecord then .record id else .plain id
  let d := scope.params.foldl (fun d p => d.typeParam p []) d
  let superclass ← options.superclass.mapM (mapType scope false)
  let d := (superclass.map d.withSuperclass).getD d
  let interfaces ← options.interfaces.mapM (mapType scope false)
  let d := interfaces.foldl Declaration.withInterface d
  fields.foldlM (addItemField options scope) d

def declareEnum (id : ClassId) (variants : List Variant) : Except ItemFault Declaration :=
  if variants.any (!·.isUnit) then .error .variantWithFields
  else if variants.isEmpty then .error .noVariants
  else .ok (.enumeration id (variants.map (·.name)))

/-- The declaration of an item. -/
def Item.declare (item : Item) : Except ItemFault Declaration := do
  let options ← ItemOptions.ofList item.options
  let id : ClassId := ⟨options.name.getD item.name⟩
  match item.body with
  | .fields fields => declareStruct options ⟨id, item.params.filterMap typeParamName?⟩ fields
  | .unnamed => throw .unnamedFields
  | .variants variants => declareEnum id variants
  | .union => throw .union

end Introspect
