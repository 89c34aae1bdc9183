import Introspect.Proofs.Computation

/-!
Two computations that a view of the state does not tell apart.

A view leaves out a part of the state. Two computations are indistinct when from any two states that look the
same they answer or fail the same, as far as a view of the answers goes, and leave states that look the same.

* `Indistinct.bind`: two steps in a row, the second of which may depend on all of the first answer.
* `Indistinct.mapM`, `Indistinct.foldlM`: loops whose steps are indistinct.
* `Indistinct.of_ok`: what the answers have in common.
-/

namespace Introspect

variable {ε σ τ α β γ δ ι : Type}

/-- An outcome, its answer and its state seen through a view each. -/
def seen (g : σ → τ) (k : α → β) : EStateM.Result ε σ α → EStateM.Result ε τ β
  | .ok a s => .ok (k a) (g s)
  | .error e s => .error e (g s)

/-- From states that look the same, the outcomes look the same. -/
def Indistinct (g : σ → τ) (k : α → β) (x y : EStateM ε σ α) : Prop :=
  ∀ s t, g s = g t → seen g k (x s) = seen g k (y t)

namespace Indistinct

variable {g : σ → τ} {k : α → β} {l : γ → δ} {s t s' t' : σ} {x y : EStateM ε σ α}

/-- The two answer together or fail together. -/
theorem outcomes (h : Indistinct g k x y) (hst : g s = g t) :
    (∃ a b s' t', x s = .ok a s' ∧ y t = .ok b t' ∧ k a = k b ∧ g s' = g t') ∨
      ∃ e s' t', x s = .error e s' ∧ y t = .error e t' ∧ g s' = g t' := by
  have hseen := h s t hst
  cases hx : x s with
  | ok a s' =>
    cases hy : y t with
    | ok b t' =>
      rw [hx, hy] at hseen
      exact .inl ⟨a, b, s', t', rfl, rfl, EStateM.Result.ok.inj hseen⟩
    | error e t' => rw [hx, hy] at hseen; cases hseen
  | error e s' =>
    cases hy : y t with
    | ok b t' => rw [hx, hy] at hseen; cases hseen
    | error e' t' =>
      rw [hx, hy] at hseen
      obtain ⟨rfl, hst'⟩ := EStateM.Result.error.inj hseen
      exact .inr ⟨e, s', t', rfl, rfl, hst'⟩

theorem of_ok (h : Indistinct g k x y) (hst : g s = g t) {a b : α} (hx : x s = .ok a s')
    (hy : y t = .ok b t') : k a = k b ∧ g s' = g t' := by
  have hseen := h s t hst
  rw [hx, hy] at hseen
  exact EStateM.Result.ok.inj hseen

theorem pure {a b : α} (h : k a = k b) :
    Indistinct g k (pure a : EStateM ε σ α) (pure b : EStateM ε σ α) := by
  intro s t hst
  show EStateM.Result.ok (k a) (g s) = .ok (k b) (g t)
  rw [h, hst]

theorem throw (e : ε) : Indistinct g k (throw e : EStateM ε σ α) (throw e : EStateM ε σ α) := by
  intro s t hst
  show EStateM.Result.error e (g s) = .error e (g t)
  rw [hst]

/-- Only what the state looks like may be used of it. -/
theorem get {f f' : σ → EStateM ε σ α} (h : ∀ s t, g s = g t → Indistinct g k (f s) (f' t)) :
    Indistinct g k (get >>= f) (get >>= f') :=
  fun s t hst => h s t hst s t hst

theorem ofExcept {a b : Except ε α} (h : a.map k = b.map k) :
    Indistinct g k (ofExcept a : EStateM ε σ α) (ofExcept b : EStateM ε σ α) := by
  rcases except_map_eq_map h with ⟨e, rfl, rfl⟩ | ⟨a, b, rfl, rfl, hab⟩
  · exact throw e
  · exact pure hab

theorem modify {f f' : σ → σ} (h : ∀ s t, g s = g t → g (f s) = g (f' t)) :
    Indistinct g id (modify f : EStateM ε σ PUnit) (modify f' : EStateM ε σ PUnit) := by
  intro s t hst
  show EStateM.Result.ok () (g (f s)) = .ok () (g (f' t))
  rw [h s t hst]

theorem ite {p : Prop} [Decidable p] {x' y' : EStateM ε σ α} (h : Indistinct g k x y)
    (h' : Indistinct g k x' y') :
    Indistinct g k (if p then x else x') (if p then y else y') := by
  split
  · exact h
  · exact h'

theorem bind {f f' : α → EStateM ε σ γ} (hxy : Indistinct g k x y)
    (hf : ∀ a b, k a = k b → Indistinct g l (f a) (f' b)) :
    Indistinct g l (x >>= f) (y >>= f') := by
  intro s t hst
  rcases hxy.outcomes hst with ⟨a, b, s', t', hx, hy, hab, hst'⟩ | ⟨e, s', t', hx, hy, hst'⟩
  · rw [bind_of_ok hx, bind_of_ok hy]
    exact hf a b hab s' t' hst'
  · rw [bind_of_error hx, bind_of_error hy]
    exact congrArg (EStateM.Result.error e) hst'

/-- Two steps with the same answer in full. -/
theorem bind_id {f f' : α → EStateM ε σ γ} (hxy : Indistinct g id x y)
    (hf : ∀ a, Indistinct g l (f a) (f' a)) : Indistinct g l (x >>= f) (y >>= f') :=
  hxy.bind fun a b hab => (show a = b from hab) ▸ hf a

theorem mapM {f f' : ι → EStateM ε σ α} {is : List ι}
    (hf : ∀ i ∈ is, Indistinct g k (f i) (f' i)) :
    Indistinct g (List.map k) (is.mapM f) (is.mapM f') := by
  induction is with
  | nil => exact pure rfl
  | cons i is ih =>
    rw [List.mapM_cons, List.mapM_cons]
    refine (hf i List.mem_cons_self).bind fun a b hab => ?_
    refine (ih fun j hj => hf j (List.mem_cons_of_mem i hj)).bind fun as bs habs => pure ?_
    rw [List.map_cons, List.map_cons, hab, habs]

theorem foldlM {f f' : α → ι → EStateM ε σ α} {is : List ι}
    (hf : ∀ i ∈ is, ∀ a b, k a = k b → Indistinct g k (f a i) (f' b i)) {a b : α} (h : k a = k b) :
    Indistinct g k (is.foldlM f a) (is.foldlM f' b) := by
  induction is generalizing a b with
  | nil => exact pure h
  | cons i is ih =>
    rw [List.foldlM_cons, List.foldlM_cons]
    exact (hf i List.mem_cons_self a b h).bind fun a' b' hab =>
      ih (fun j hj => hf j (List.mem_cons_of_mem i hj)) hab

end Indistinct
end Introspect
