import Introspect.Proofs.Classes.Resolution
import Introspect.Proofs.Models.Search

/-!
Models are asked for by resolved types only: what resolution answers stays as it is when it is resolved
again, and the search of its model never meets a type without a class.

* `modelWithin_raises`: the search of the model of a resolved type.
* `resolve_answer_fixed`: the answers of resolution.
-/

namespace Introspect.Registry

open ClassTable TypeExpr

theorem modelWithin_raises (n : Nat) {ty : TypeExpr} (hty : Resolved (depthLimit + 1) ty) :
    Raises (¬ unresolved ·) (modelWithin n ty) := by
  induction n generalizing ty with
  | zero => exact Raises.throw (by rintro ⟨ty, h⟩; cases h)
  | succ n ih =>
    obtain ⟨raw, args, hparts, -⟩ := hty.parts
    intro r e r' h
    cases modelWithin_step n ty r with
    | classless hp hsearch => rw [hparts] at hp; cases hp
    | undeclared raw args e' hp hc hsearch =>
      rw [hsearch] at h
      cases h
      exact (lookup_failure hc).resolution.not_unresolved
    | ends raw args c hp hc hd hsearch =>
      obtain ⟨m, s, hm⟩ := cachedModel_answers ty c raw args r
      rw [hsearch, hm] at h
      cases h
    | goesOn raw args c superclass hp hc hs hsearch =>
      rw [hsearch] at h
      -- the search goes on from the resolved superclass, which is again no open type
      rcases bind_eq_error_iff.1 h with h | ⟨resolved, s, hr, h⟩
      · exact (onTable_raises (resolveAt_raises _ superclass ty) r e r' h).not_unresolved
      · obtain ⟨t, hr, -⟩ := onTable_eq_ok hr
        exact ih (resolveAt_resolved hr) s e r' h

/-- The answer of a resolution holds only classes and parameterizations. Resolving it again, in any
scope and over any table, answers it and adds no class; and no search of its model ends at a type
without a class. -/
theorem resolve_answer_fixed {t t' : ClassTable} {ty site answer : TypeExpr}
    (h : ClassTable.resolve ty site t = .ok answer t') :
    answer.isConcrete = true ∧
      (∀ scope u, ClassTable.resolve answer scope u = .ok answer u) ∧
      ∀ r r' x, modelFor answer r ≠ .error (.internal (.unresolvedType x)) r' := by
  have hresolved : Resolved (depthLimit + 1) answer := resolveAt_resolved h
  refine ⟨hresolved.concrete, fun scope u => resolveAt_of_resolved hresolved scope u, ?_⟩
  intro r r' x hfail
  exact modelWithin_raises redirectionLimit hresolved r _ r' hfail ⟨x, rfl⟩

/-- A map of an open bound to an array of a variable: the bound stands for the wildcard, the argument
of the site for the variable, and the array becomes a class of its own. -/
theorem resolve_answer_fixed_map :
    (TypeExpr.apply .map [.named .string, .named ⟨"String[]"⟩]).isConcrete = true ∧
      (∀ scope u,
        ClassTable.resolve (.apply .map [.named .string, .named ⟨"String[]"⟩]) scope u =
          .ok (.apply .map [.named .string, .named ⟨"String[]"⟩]) u) ∧
      ∀ r r' x,
        modelFor (.apply .map [.named .string, .named ⟨"String[]"⟩]) r ≠
          .error (.internal (.unresolvedType x)) r' :=
  resolve_answer_fixed (show
    ClassTable.resolve (.apply .map [extending (.named .string), .array (.var .arrayList "E")])
        (.apply .arrayList [.named .string]) builtin =
      .ok (.apply .map [.named .string, .named ⟨"String[]"⟩])
        ⟨arrayClass (.named .string) :: builtin.classes⟩ from by rfl)

end Introspect.Registry
