import Introspect.Types.ClassId

/-!
Type expressions: classes, parameterizations, wildcards, variables of generic declarations and arrays
of a generic component.

`display` is the text of an expression, `raw?` its class, and `isConcrete` tells that it holds only
classes and parameterizations.
-/

namespace Introspect

inductive TypeExpr where
  | named (id : ClassId)
  | apply (raw : ClassId) (args : List TypeExpr)
  | wildcard (lower upper : List TypeExpr)
  | var (owner : ClassId) (name : String)
  | array (component : TypeExpr)
  deriving Repr, Inhabited

namespace TypeExpr

/-! ## Decidable equality -/

mutual

def decEq : (a b : TypeExpr) → Decidable (a = b)
  | .named i, .named j =>
    if h : i = j then isTrue (by rw [h]) else isFalse (by intro e; cases e; exact h rfl)
  | .apply r as, .apply s bs =>
    if h : r = s then
      match decEqList as bs with
      | isTrue h' => isTrue (by rw [h, h'])
      | isFalse h' => isFalse (by intro e; cases e; exact h' rfl)
    else isFalse (by intro e; cases e; exact h rfl)
  | .wildcard l u, .wildcard l' u' =>
    match decEqList l l' with
    | isTrue h =>
      match decEqList u u' with
      | isTrue h' => isTrue (by rw [h, h'])
      | isFalse h' => isFalse (by intro e; cases e; exact h' rfl)
    | isFalse h => isFalse (by intro e; cases e; exact h rfl)
  | .var o n, .var o' n' =>
    if h : o = o' ∧ n = n' then isTrue (by rw [h.1, h.2])
    else isFalse (by intro e; cases e; exact h ⟨rfl, rfl⟩)
  | .array c, .array d =>
    match decEq c d with
    | isTrue h => isTrue (by rw [h])
    | isFalse h => isFalse (by intro e; cases e; exact h rfl)
  | .named _, .apply .. | .named _, .wildcard .. | .named _, .var .. | .named _, .array _
  | .apply .., .named _ | .apply .., .wildcard .. | .apply .., .var .. | .apply .., .array _
  | .wildcard .., .named _ | .wildcard .., .apply .. | .wildcard .., .var ..
  | .wildcard .., .array _ | .var .., .named _ | .var .., .apply .. | .var .., .wildcard ..
  | .var .., .array _ | .array _, .named _ | .array _, .apply .. | .array _, .wildcard ..
  | .array _, .var .. => isFalse (by intro e; cases e)

def decEqList : (as bs : List TypeExpr) → Decidable (as = bs)
  | [], [] => isTrue rfl
  | [], _ :: _ => isFalse (by intro e; cases e)
  | _ :: _, [] => isFalse (by intro e; cases e)
  | a :: as, b :: bs =>
    match decEq a b with
    | isTrue h =>
      match decEqList as bs with
      | isTrue h' => isTrue (by rw [h, h'])
      | isFalse h' => isFalse (by intro e; cases e; exact h' rfl)
    | isFalse h => isFalse (by intro e; cases e; exact h rfl)

end

instance : DecidableEq TypeExpr := decEq

/-! ## Views -/

/-- Class of a class type or a parameterization. -/
def raw? : TypeExpr → Option ClassId
  | .named id => some id
  | .apply raw _ => some raw
  | _ => none

/-- Class and arguments of a class type or a parameterization. -/
def parts? : TypeExpr → Option (ClassId × List TypeExpr)
  | .named id => some (id, [])
  | .apply raw args => some (raw, args)
  | _ => none

mutual

/-- The expression holds only classes and parameterizations. -/
def isConcrete : TypeExpr → Bool
  | .named _ => true
  | .apply _ args => areConcrete args
  | .wildcard _ _ => false
  | .var _ _ => false
  | .array _ => false

def areConcrete : List TypeExpr → Bool
  | [] => true
  | t :: ts => t.isConcrete && areConcrete ts

end

mutual

/-- Text of an expression. A wildcard shows its first lower bound, else its first upper bound. -/
def display : TypeExpr → String
  | .named id => id.name
  | .apply raw args => raw.name ++ "<" ++ displayArgs args ++ ">"
  | .wildcard (b :: _) _ => "? super " ++ b.display
  | .wildcard [] (b :: _) => "? extends " ++ b.display
  | .wildcard [] [] => "?"
  | .var _ name => name
  | .array component => component.display ++ "[]"

def displayArgs : List TypeExpr → String
  | [] => ""
  | t :: ts => t.display ++ displayMore ts

def displayMore : List TypeExpr → String
  | [] => ""
  | t :: ts => ", " ++ t.display ++ displayMore ts

end

/-! ## Shorthands -/

def extending (bound : TypeExpr) : TypeExpr := .wildcard [] [bound]

def superOf (bound : TypeExpr) : TypeExpr := .wildcard [bound] []

end TypeExpr
end Introspect
