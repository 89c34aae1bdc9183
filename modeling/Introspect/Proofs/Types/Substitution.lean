import Introspect.Classes.Resolution

/-!
Substitution of type expressions for variables, and the collapse of wildcards and arrays.

A variable is an owner and a name, so variables of different classes never meet, whatever they are called.

* `bindVars_eq_subst`: binding the variables of a class is a substitution.
* `vars_subst`: a substitution leaves the variables of what it puts in.
* `collapse_subst_congr`: only the variables that are seen matter to the collapse.
-/

namespace Introspect

/-- What a class's variables stand for under a list of arguments; a variable without one stays. -/
def Class.binding (c : Class) (given : List TypeExpr) (owner : ClassId) (name : String) : TypeExpr :=
  if owner = c.id then
    ((c.typeParamIndex? name).bind fun i => given[i]?).getD (.var owner name)
  else .var owner name

namespace TypeExpr

/-! ## Substitution -/

mutual

/-- Every variable replaced by what it stands for. -/
def subst (σ : ClassId → String → TypeExpr) : TypeExpr → TypeExpr
  | .named id => .named id
  | .apply raw args => .apply raw (substAll σ args)
  | .wildcard lower upper => .wildcard (substAll σ lower) (substAll σ upper)
  | .var owner name => σ owner name
  | .array component => .array (component.subst σ)

def substAll (σ : ClassId → String → TypeExpr) : List TypeExpr → List TypeExpr
  | [] => []
  | ty :: tys => ty.subst σ :: substAll σ tys

end

mutual

/-- The variables of an expression. -/
def vars : TypeExpr → List (ClassId × String)
  | .named _ => []
  | .apply _ args => varsOfAll args
  | .wildcard lower upper => varsOfAll lower ++ varsOfAll upper
  | .var owner name => [(owner, name)]
  | .array component => component.vars

def varsOfAll : List TypeExpr → List (ClassId × String)
  | [] => []
  | ty :: tys => ty.vars ++ varsOfAll tys

end

theorem substAll_eq_map (σ : ClassId → String → TypeExpr) (tys : List TypeExpr) :
    substAll σ tys = tys.map (subst σ) := by
  induction tys with
  | nil => rfl
  | cons ty tys ih => rw [substAll, ih, List.map_cons]

theorem varsOfAll_eq_flatMap (tys : List TypeExpr) : varsOfAll tys = tys.flatMap vars := by
  induction tys with
  | nil => rfl
  | cons ty tys ih => rw [varsOfAll, ih, List.flatMap_cons]

mutual

/-- The variables of what the variables stand for. -/
theorem vars_subst (σ : ClassId → String → TypeExpr) :
    ∀ ty : TypeExpr, (ty.subst σ).vars = ty.vars.flatMap fun v => (σ v.1 v.2).vars
  | .named _ => rfl
  | .apply _ args => varsOfAll_substAll σ args
  | .wildcard lower upper => by
    simp only [subst, vars, varsOfAll_substAll σ lower, varsOfAll_substAll σ upper,
      List.flatMap_append]
  | .var owner name => by simp only [subst, vars, List.flatMap_cons, List.flatMap_nil, List.append_nil]
  | .array component => vars_subst σ component

theorem varsOfAll_substAll (σ : ClassId → String → TypeExpr) :
    ∀ tys : List TypeExpr,
      varsOfAll (substAll σ tys) = (varsOfAll tys).flatMap fun v => (σ v.1 v.2).vars
  | [] => rfl
  | ty :: tys => by
    simp only [substAll, varsOfAll, vars_subst σ ty, varsOfAll_substAll σ tys, List.flatMap_append]

end

theorem vars_subst_eq_nil {σ : ClassId → String → TypeExpr} (ty : TypeExpr)
    (h : ∀ v ∈ ty.vars, (σ v.1 v.2).vars = []) : (ty.subst σ).vars = [] := by
  rw [vars_subst, List.flatMap_eq_nil_iff]
  exact h

mutual

theorem vars_of_isConcrete : ∀ ty : TypeExpr, ty.isConcrete = true → ty.vars = []
  | .named _, _ => rfl
  | .apply _ args, h => varsOfAll_of_areConcrete args h
  | .wildcard _ _, h => by cases h
  | .var _ _, h => by cases h
  | .array _, h => by cases h

theorem varsOfAll_of_areConcrete :
    ∀ tys : List TypeExpr, areConcrete tys = true → varsOfAll tys = []
  | [], _ => rfl
  | ty :: tys, h => by
    simp only [areConcrete, Bool.and_eq_true] at h
    simp only [varsOfAll, vars_of_isConcrete ty h.1, varsOfAll_of_areConcrete tys h.2,
      List.append_nil]

end

/-! ## Binding the variables of a class -/

mutual

theorem bindVars_eq_subst (c : Class) (given : List TypeExpr) :
    ∀ ty : TypeExpr, bindVars c given ty = ty.subst (c.binding given)
  | .named _ => rfl
  | .apply raw args => by simp only [bindVars, subst, bindVarsList_eq_substAll c given args]
  | .wildcard lower upper => by
    simp only [bindVars, subst, bindVarsList_eq_substAll c given lower,
      bindVarsList_eq_substAll c given upper]
  | .var _ _ => rfl
  | .array component => by simp only [bindVars, subst, bindVars_eq_subst c given component]

theorem bindVarsList_eq_substAll (c : Class) (given : List TypeExpr) :
    ∀ tys : List TypeExpr, bindVarsList c given tys = substAll (c.binding given) tys
  | [] => rfl
  | ty :: tys => by
    simp only [bindVarsList, substAll, bindVars_eq_subst c given ty,
      bindVarsList_eq_substAll c given tys]

end

theorem substitute_eq_subst {c : Class} {given : List TypeExpr} (h : given ≠ []) :
    substitute c given = subst (c.binding given) := by
  funext ty
  have hne : given.isEmpty = false := by rw [List.isEmpty_eq_false_iff]; exact h
  rw [substitute, hne, if_neg Bool.false_ne_true, bindVars_eq_subst]

/-! ## Collapse -/

mutual

/-- Each wildcard replaced by its first lower bound, else its first upper bound, else `Object`, and each array
by its array class. -/
def collapse : TypeExpr → TypeExpr
  | .named id => .named id
  | .apply raw args => .apply raw (collapseAll args)
  | .wildcard (bound :: _) _ => bound.collapse
  | .wildcard [] (bound :: _) => bound.collapse
  | .wildcard [] [] => .object
  | .var owner name => .var owner name
  | .array component => .named (ClassTable.arrayId component.collapse)

def collapseAll : List TypeExpr → List TypeExpr
  | [] => []
  | ty :: tys => ty.collapse :: collapseAll tys

end

theorem collapseAll_eq_map (tys : List TypeExpr) : collapseAll tys = tys.map collapse := by
  induction tys with
  | nil => rfl
  | cons ty tys ih => rw [collapseAll, ih, List.map_cons]

theorem collapse_subst_wildcard (σ : ClassId → String → TypeExpr) (lower upper : List TypeExpr) :
    ((wildcard lower upper).subst σ).collapse =
      match lower.head?.or upper.head? with
      | some bound => (bound.subst σ).collapse
      | none => .object := by
  cases lower with
  | cons bound lower => rfl
  | nil =>
    cases upper with
    | cons bound upper => rfl
    | nil => rfl

mutual

theorem collapse_of_isConcrete : ∀ ty : TypeExpr, ty.isConcrete = true → ty.collapse = ty
  | .named _, _ => rfl
  | .apply _ args, h => by simp only [collapse, collapseAll_of_areConcrete args h]
  | .wildcard _ _, h => by cases h
  | .var _ _, h => by cases h
  | .array _, h => by cases h

theorem collapseAll_of_areConcrete :
    ∀ tys : List TypeExpr, areConcrete tys = true → collapseAll tys = tys
  | [], _ => rfl
  | ty :: tys, h => by
    simp only [areConcrete, Bool.and_eq_true] at h
    simp only [collapseAll, collapse_of_isConcrete ty h.1, collapseAll_of_areConcrete tys h.2]

end

/-! ## What collapse looks at -/

mutual

/-- The variables outside the bounds of wildcards that do not count. -/
def seen : TypeExpr → List (ClassId × String)
  | .named _ => []
  | .apply _ args => seenInAll args
  | .wildcard (bound :: _) _ => bound.seen
  | .wildcard [] (bound :: _) => bound.seen
  | .wildcard [] [] => []
  | .var owner name => [(owner, name)]
  | .array component => component.seen

def seenInAll : List TypeExpr → List (ClassId × String)
  | [] => []
  | ty :: tys => ty.seen ++ seenInAll tys

end

theorem mem_seenInAll {v : ClassId × String} {tys : List TypeExpr} :
    v ∈ seenInAll tys ↔ ∃ ty ∈ tys, v ∈ ty.seen := by
  induction tys with
  | nil => simp [seenInAll]
  | cons ty tys ih => simp [seenInAll, ih]

/-- A wildcard shows what its bound shows. -/
theorem seen_wildcard {lower upper : List TypeExpr} :
    (wildcard lower upper).seen = ((lower.head?.or upper.head?).map seen).getD [] := by
  cases lower with
  | cons bound lower => rfl
  | nil =>
    cases upper with
    | cons bound upper => rfl
    | nil => rfl

mutual

/-- Only the seen variables matter to the collapse. -/
theorem collapse_subst_congr {σ τ : ClassId → String → TypeExpr} :
    ∀ ty : TypeExpr, (∀ v ∈ ty.seen, σ v.1 v.2 = τ v.1 v.2) →
      (ty.subst σ).collapse = (ty.subst τ).collapse
  | .named _, _ => rfl
  | .apply raw args, h => by simp only [subst, collapse, collapseAll_substAll_congr args h]
  | .wildcard (bound :: _) _, h => collapse_subst_congr bound h
  | .wildcard [] (bound :: _), h => collapse_subst_congr bound h
  | .wildcard [] [], _ => rfl
  | .var owner name, h => by simp only [subst, h (owner, name) (List.mem_singleton_self _)]
  | .array component, h => by simp only [subst, collapse, collapse_subst_congr component h]

theorem collapseAll_substAll_congr {σ τ : ClassId → String → TypeExpr} :
    ∀ tys : List TypeExpr, (∀ v ∈ seenInAll tys, σ v.1 v.2 = τ v.1 v.2) →
      collapseAll (substAll σ tys) = collapseAll (substAll τ tys)
  | [], _ => rfl
  | ty :: tys, h => by
    have hty := collapse_subst_congr ty fun v hv => h v (List.mem_append_left _ hv)
    have htys := collapseAll_substAll_congr tys fun v hv => h v (List.mem_append_right _ hv)
    simp only [substAll, collapseAll, hty, htys]

end

end TypeExpr
end Introspect
