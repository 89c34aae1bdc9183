import Introspect.Types.Expr

/-!
Annotated source items: structs, enums and unions as they are written, with the options that are
attached to them and to their fields.
-/

namespace Introspect

inductive SourceType where
  /-- A path and the type arguments of its last segment. -/
  | path (segments : List String) (args : List SourceType)
  | array (element : SourceType)
  | slice (element : SourceType)
  | reference (target : SourceType)
  | paren (inner : SourceType)
  /-- Tuples, pointers, functions and all that no declaration can describe. -/
  | unsupported
  deriving Repr, Inhabited

/-- One option of an attribute. Items and fields each know some of them. -/
inductive ItemOption where
  | flag (word : String)
  | name (text : String)
  | superclass (type : SourceType)
  | interface (type : SourceType)
  deriving Repr, Inhabited

structure SourceField where
  name : String
  isPublic : Bool
  /-- The options of all attributes in order. -/
  options : List ItemOption
  type : SourceType
  deriving Repr, Inhabited

structure Variant where
  name : String
  /-- A variant without fields or parentheses. -/
  isUnit : Bool
  deriving DecidableEq, Repr, Inhabited

inductive ItemBody where
  | fields (fields : List SourceField)
  /-- A struct without named fields. -/
  | unnamed
  | variants (variants : List Variant)
  | union
  deriving Repr, Inhabited

structure Item where
  name : String
  options : List ItemOption
  /-- Generic parameters as they are written. -/
  params : List String
  body : ItemBody
  deriving Repr, Inhabited

/-! ## Written forms -/

/-- Splits a text at every `::`; `current` holds the segment being read, last character first. -/
def splitSegments (current : List Char) : List Char → List (List Char)
  | ':' :: ':' :: rest => current.reverse :: splitSegments [] rest
  | c :: rest => splitSegments (c :: current) rest
  | [] => [current.reverse]

/-- Segments of a path. A leading `::` adds none. -/
def pathSegments (text : String) : List String :=
  ((splitSegments [] text.toList).filter (!·.isEmpty)).map String.ofList

/-- Where the name of a generic parameter or of a variant ends. -/
def endsName (c : Char) : Bool := c = ':' || c = '=' || c = ' '

/-- The name at the start of a written parameter or variant. -/
def leadingName (text : String) : String :=
  String.ofList (text.toList.takeWhile fun c => !endsName c)

/-- The name of a type parameter; none for a lifetime or a constant. -/
def typeParamName? (text : String) : Option String :=
  if "'".toList.isPrefixOf text.toList || "const ".toList.isPrefixOf text.toList then none
  else some (leadingName text)

/-- A name without the marks of a raw identifier in front. -/
def plainName : List Char → List Char
  | 'r' :: '#' :: rest => plainName rest
  | name => name

end Introspect
