import Introspect.Types.Expr
import Introspect.Text.Quoted

/-!
Failures of the library's operations, by cause, and their texts.

Absent lookups (an unknown property, a name that is no index, a missing key) are no failures.
-/

namespace Introspect

inductive DeclarationFault where
  | recordWithoutComponents (id : ClassId)
  | enumWithoutConstants (id : ClassId)
  | interfaceInstance (id : ClassId)
  | abstractInstance (id : ClassId)
  deriving DecidableEq, Repr

def DeclarationFault.message : DeclarationFault → String
  | .recordWithoutComponents id => "record " ++ id.name ++ " has no components"
  | .enumWithoutConstants id => "enum " ++ id.name ++ " has no constants"
  | .interfaceInstance id => "cannot instantiate interface " ++ id.name
  | .abstractInstance id => "cannot instantiate abstract class " ++ id.name

inductive ConfigFault where
  | number (key raw : String) (fault : Text.NumeralFault)
  | flag (key raw : String)
  | document
  | missingFile
  deriving DecidableEq, Repr

def ConfigFault.message : ConfigFault → String
  | .number key raw fault => key ++ "=" ++ Text.quoted raw ++ ": " ++ fault.message
  | .flag key raw => key ++ "=" ++ Text.quoted raw ++ ": expected a boolean"
  | .document => "Failed to parse document"
  | .missingFile => "Failed to read file"

/-- Why a member that the scan found accessible cannot be used. -/
inductive AccessFault where
  | noImplementation
  | noCanonicalConstructor
  deriving DecidableEq, Repr

def AccessFault.message : AccessFault → String
  | .noImplementation => "no implementation on receiver"
  | .noCanonicalConstructor => "no canonical constructor"

inductive InternalFault where
  | resolutionDepth (ty site : TypeExpr)
  | erasureDepth (ty : TypeExpr)
  | searchDepth (target : ClassId) (ty : TypeExpr)
  | unresolvedType (ty : TypeExpr)
  /-- A member's own failure. -/
  | failure (text : String)
  deriving DecidableEq, Repr

def depthLimit : Nat := 64

def InternalFault.message : InternalFault → String
  | .resolutionDepth ty site =>
    "type resolution of " ++ ty.display ++ " from " ++ site.display ++ " exceeded depth " ++
      Text.decimal depthLimit
  | .erasureDepth ty => "erasure of " ++ ty.display ++ " exceeded depth"
  | .searchDepth target ty =>
    "parameter search for " ++ target.name ++ " in " ++ ty.display ++ " exceeded depth " ++
      Text.decimal depthLimit
  | .unresolvedType ty => "model requested for unresolved type " ++ ty.display
  | .failure text => text

inductive Error where
  | unknownClass (id : ClassId)
  | duplicateClass (id : ClassId)
  | invalidDeclaration (fault : DeclarationFault)
  | noSuchMethod (receiver name : String) (arity : Nat)
  | typeMismatch (expected got : String)
  | codec (typeName input : String)
  | growthLimit (index limit : Nat)
  | capacity (index : Nat)
  | config (fault : ConfigFault)
  | unresolvedVariable (owner : ClassId) (name : String) (site : TypeExpr)
  | introspection (member : String) (fault : AccessFault)
  | registryDropped
  | internal (fault : InternalFault)
  /-- The outcome of a computation that never answers: a walk along a hierarchy that does not end. -/
  | endless (id : ClassId)
  deriving DecidableEq, Repr

namespace Error

def internalText (text : String) : String := "Unexpected internal failure: " ++ text

def message : Error → String
  | .unknownClass id => "Unknown class: " ++ id.name
  | .duplicateClass id => "Class already declared: " ++ id.name
  | .invalidDeclaration fault => "Invalid declaration: " ++ fault.message
  | .noSuchMethod receiver name arity =>
    "No method " ++ name ++ "/" ++ Text.decimal arity ++ " on " ++ receiver
  | .typeMismatch expected got => "Type mismatch: expected " ++ expected ++ ", got " ++ got
  | .codec typeName input => "Cannot decode " ++ Text.quoted input ++ " as " ++ typeName
  | .growthLimit index limit =>
    "Index " ++ Text.decimal index ++ " exceeds sequence growth limit " ++ Text.decimal limit
  | .capacity index => "Cannot grow sequence to index " ++ Text.decimal index
  | .config fault => "Configuration error: " ++ fault.message
  | .unresolvedVariable owner name site =>
    internalText ("type variable " ++ owner.name ++ "." ++ name ++ " unresolvable from " ++
      site.display)
  | .introspection member fault =>
    internalText ("introspection of " ++ member ++ " failed: " ++ fault.message)
  | .registryDropped => internalText "model registry was dropped"
  | .internal fault => internalText fault.message
  | .endless id => internalText ("hierarchy of " ++ id.name ++ " does not end")

/-- The failure tells of a malformed class table rather than of a mistake of the caller. -/
def isInternal : Error → Bool
  | .unresolvedVariable .. | .introspection .. | .registryDropped | .internal _ | .endless _ => true
  | _ => false

end Error
end Introspect
