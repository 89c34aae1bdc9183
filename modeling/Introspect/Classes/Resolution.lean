import Introspect.Classes.Table

/-!
Generic type resolution.

`resolve ty site` makes the expression `ty`, seen in the scope of `site`, concrete:

* a class is itself, a parameterization resolves its arguments;
* a wildcard is its first lower bound, else its first upper bound, else `Object`;
* a variable is the argument that the site's supertypes supply for it, else the erasure of its first
  bound, else `Object`;
* an array is the array class of its resolved component.

Every search carries the levels it may still go down; `depthLimit` of them are allowed below the start.
-/

namespace Introspect

namespace TypeExpr

mutual

/-- Replaces the variables that `owner` declares by the matching arguments; a variable without one is
kept. -/
def bindVars (owner : Class) (args : List TypeExpr) : TypeExpr → TypeExpr
  | .named id => .named id
  | .apply raw inner => .apply raw (bindVarsList owner args inner)
  | .wildcard lower upper =>
    .wildcard (bindVarsList owner args lower) (bindVarsList owner args upper)
  | .var o name =>
    if o = owner.id then
      ((owner.typeParamIndex? name).bind fun i => args[i]?).getD (.var o name)
    else .var o name
  | .array component => .array (bindVars owner args component)

def bindVarsList (owner : Class) (args : List TypeExpr) : List TypeExpr → List TypeExpr
  | [] => []
  | ty :: tys => bindVars owner args ty :: bindVarsList owner args tys

end

/-- `bindVars`, except that without any arguments the expression stays as it is. -/
def substitute (owner : Class) (args : List TypeExpr) (ty : TypeExpr) : TypeExpr :=
  if args.isEmpty then ty else bindVars owner args ty

/-- The arguments of a parameterization of `target`. -/
def argumentsOf? (target : ClassId) : TypeExpr → Option (List TypeExpr)
  | .apply raw args => if raw = target then some args else none
  | _ => none

end TypeExpr

namespace ClassTable

/-! ## Parameter search -/

/-- The first non-empty answer; an empty list when all answers are empty. -/
def firstNonEmpty {α β : Type} (f : α → Except Error (List β)) : List α → Except Error (List β)
  | [] => .ok []
  | a :: as =>
    match f a with
    | .error e => .error e
    | .ok bs => if bs.isEmpty then firstNonEmpty f as else .ok bs

/-- The search of `collectParameters`. Each supertype is rewritten in terms of the arguments of the
level below; a direct parameterization of the target wins over what lies further up. -/
def searchParameters (t : ClassTable) (target : ClassId) :
    Nat → TypeExpr → Except Error (List TypeExpr)
  | 0, ty => .error (.internal (.searchDepth target ty))
  | n + 1, ty =>
    match ty.parts? with
    | none => .ok []
    | some (raw, args) =>
      if raw = target then .ok args
      else
        match t.lookup raw with
        | .error e => .error e
        | .ok c =>
          let supers := c.supertypes.map (TypeExpr.substitute c args)
          match supers.findSome? (TypeExpr.argumentsOf? target) with
          | some found => .ok found
          | none => firstNonEmpty (t.searchParameters target n) supers

/-- Type arguments that `ty` supplies to the generic class `target`. Empty when the target is no generic
supertype, or is `ty` itself without arguments. -/
def collectParameters (t : ClassTable) (ty : TypeExpr) (target : ClassId) :
    Except Error (List TypeExpr) :=
  t.searchParameters target (depthLimit + 1) ty

/-! ## Resolution -/

/-- Raw classes only, so that self-referential bounds end. -/
def eraseAt : Nat → TypeExpr → TableM TypeExpr
  | 0, ty => throw (.internal (.erasureDepth ty))
  | n + 1, ty =>
    match ty with
    | .named id => pure (.named id)
    | .apply raw _ => pure (.named raw)
    | .wildcard _ upper =>
      match upper with
      | bound :: _ => eraseAt n bound
      | [] => pure .object
    | .var owner name => do
      let c ← ofExcept ((← get).lookup owner)
      match (c.typeParamIndex? name).bind fun i => c.typeParams[i]?.bind (·.bounds.head?) with
      | some bound => eraseAt n bound
      | none => pure .object
    | .array component => do
      let component ← eraseAt n component
      return .named (← arrayOf component)

/-- The erasure of the first bound of a type parameter; `Object` when it has none. -/
def eraseBound (n : Nat) (c : Class) (index : Nat) : TableM TypeExpr :=
  match c.typeParams[index]?.bind (·.bounds.head?) with
  | some bound => eraseAt n bound
  | none => pure .object

def resolveAt : Nat → TypeExpr → TypeExpr → TableM TypeExpr
  | 0, ty, site => throw (.internal (.resolutionDepth ty site))
  | n + 1, ty, site =>
    match ty with
    | .named id => pure (.named id)
    | .apply raw args => do
      let args ← args.mapM fun arg => resolveAt n arg site
      return .apply raw args
    | .wildcard lower upper =>
      match lower.head?.or upper.head? with
      | some bound => resolveAt n bound site
      | none => pure .object
    | .var owner name => do
      let t ← get
      let c ← ofExcept (t.lookup owner)
      match c.typeParamIndex? name with
      | none => throw (.unresolvedVariable owner name site)
      | some index =>
        let params ← ofExcept (t.collectParameters site owner)
        match params[index]? with
        | some arg =>
          if arg = .var owner name then eraseBound n c index else resolveAt n arg site
        | none => eraseBound n c index
    | .array component => do
      let component ← resolveAt n component site
      return .named (← arrayOf component)

/-- The concrete type of `ty` in the scope of `site`. -/
def resolve (ty site : TypeExpr) : TableM TypeExpr := resolveAt (depthLimit + 1) ty site

end ClassTable
end Introspect
