/-!
Class identities: a class is known by its name.
-/

namespace Introspect

structure ClassId where
  name : String
  deriving DecidableEq, Repr, Inhabited

namespace ClassId

/-- What follows the last `::`, if there is one. -/
def afterColons? : List Char → Option (List Char)
  | [] => none
  | c :: s =>
    match afterColons? s with
    | some t => some t
    | none =>
      match c, s with
      | ':', ':' :: t => some t
      | _, _ => none

/-- What follows the last `.`, if there is one. -/
def afterDot? : List Char → Option (List Char)
  | [] => none
  | c :: s =>
    match afterDot? s with
    | some t => some t
    | none => if c = '.' then some s else none

/-- The name without any prefix qualified by `::` or `.`. -/
def simpleName (id : ClassId) : String :=
  let tail := (afterColons? id.name.toList).getD id.name.toList
  String.ofList ((afterDot? tail).getD tail)

end ClassId
end Introspect
