import Introspect.Types.Expr

/-!
Resolved types: expressions of classes and parameterizations only, with a bound on their levels.
-/

namespace Introspect.TypeExpr

mutual

/-- Levels of an expression; one for a class. -/
def height : TypeExpr → Nat
  | .named _ => 1
  | .apply _ args => heightOfAll args + 1
  | .wildcard lower upper => max (heightOfAll lower) (heightOfAll upper) + 1
  | .var _ _ => 1
  | .array component => component.height + 1

/-- Levels of the highest expression of a list. -/
def heightOfAll : List TypeExpr → Nat
  | [] => 0
  | ty :: tys => max ty.height (heightOfAll tys)

end

/-- Concrete, with at most `n` levels. -/
structure Resolved (n : Nat) (ty : TypeExpr) : Prop where
  concrete : ty.isConcrete = true
  height_le : ty.height ≤ n

theorem areConcrete_iff {tys : List TypeExpr} :
    areConcrete tys = true ↔ ∀ ty ∈ tys, ty.isConcrete = true := by
  induction tys with
  | nil => simp [areConcrete]
  | cons ty tys ih => simp [areConcrete, ih]

theorem heightOfAll_le_iff {tys : List TypeExpr} {n : Nat} :
    heightOfAll tys ≤ n ↔ ∀ ty ∈ tys, ty.height ≤ n := by
  induction tys with
  | nil => simp [heightOfAll]
  | cons ty tys ih => rw [heightOfAll, Nat.max_le, ih, List.forall_mem_cons]

namespace Resolved

theorem mono {n k : Nat} {ty : TypeExpr} (h : Resolved n ty) (hk : n ≤ k) : Resolved k ty :=
  ⟨h.concrete, Nat.le_trans h.height_le hk⟩

theorem named (n : Nat) (id : ClassId) : Resolved (n + 1) (.named id) :=
  ⟨rfl, by simp [height]⟩

theorem apply_iff {n : Nat} {raw : ClassId} {args : List TypeExpr} :
    Resolved (n + 1) (.apply raw args) ↔ ∀ arg ∈ args, Resolved n arg := by
  constructor
  · intro h arg harg
    have hc : areConcrete args = true := h.concrete
    have hh : heightOfAll args ≤ n := Nat.le_of_succ_le_succ h.height_le
    exact ⟨areConcrete_iff.1 hc arg harg, heightOfAll_le_iff.1 hh arg harg⟩
  · intro h
    refine ⟨areConcrete_iff.2 fun arg harg => (h arg harg).concrete, ?_⟩
    exact Nat.succ_le_succ (heightOfAll_le_iff.2 fun arg harg => (h arg harg).height_le)

theorem pos {n : Nat} {ty : TypeExpr} (h : Resolved n ty) : 0 < n := by
  have hle := h.height_le
  cases ty <;> simp only [height] at hle <;> omega

/-- A resolved type has a class; its arguments, if any, have a level less. -/
theorem parts {n : Nat} {ty : TypeExpr} (h : Resolved (n + 1) ty) :
    ∃ raw args, ty.parts? = some (raw, args) ∧ ∀ arg ∈ args, Resolved n arg := by
  cases ty with
  | named id => exact ⟨id, [], rfl, by simp⟩
  | apply raw args => exact ⟨raw, args, rfl, apply_iff.1 h⟩
  | wildcard lower upper => cases h.concrete
  | var owner name => cases h.concrete
  | array component => cases h.concrete

end Resolved

end Introspect.TypeExpr
