import Introspect.Proofs.Computation

/-!
Two computations side by side, each with its own state: where the one answers, so does the other.

The states are kept within a bound that a computation cannot come back into once it has left it
(`Inward`); so the bound need only be known of where both end.

* `Follows.bind`: the outcomes of two steps in a row.
* `Follows.mapM`, `Follows.foldlM`: loops whose steps follow each other.
-/

namespace Introspect

variable {ε σ α β γ δ : Type} {W : σ → Prop}

/-! ## Computations that do not come back -/

/-- What ends within the bound has begun there. -/
def Inward (W : σ → Prop) (x : EStateM ε σ α) : Prop := Moves (fun s t => W t → W s) x

theorem Inward.pure (a : α) : Inward W (pure a : EStateM ε σ α) :=
  Moves.pure (fun _ h => h) a

theorem Inward.throw (e : ε) : Inward W (throw e : EStateM ε σ α) :=
  Moves.throw (fun _ h => h) e

theorem Inward.get : Inward W (get : EStateM ε σ σ) :=
  Moves.get fun _ h => h

theorem Inward.ofExcept (x : Except ε α) : Inward W (ofExcept x : EStateM ε σ α) :=
  Moves.ofExcept (fun _ h => h) x

theorem Inward.discard {x : EStateM ε σ α} (hx : Inward W x) : Inward W (discard x) :=
  Moves.discard hx

theorem Inward.bind {x : EStateM ε σ α} {f : α → EStateM ε σ β} (hx : Inward W x)
    (hf : ∀ a, Inward W (f a)) : Inward W (x >>= f) :=
  Moves.bind (fun _ _ _ h h' hu => h (h' hu)) hx hf

theorem Inward.mapM {f : α → EStateM ε σ β} (hf : ∀ a, Inward W (f a)) (as : List α) :
    Inward W (as.mapM f) :=
  Moves.mapM (fun _ h => h) (fun _ _ _ h h' hu => h (h' hu)) fun a _ => hf a

theorem Inward.foldlM {f : β → α → EStateM ε σ β} (hf : ∀ b a, Inward W (f b a)) (as : List α)
    (b : β) : Inward W (as.foldlM f b) :=
  Moves.foldlM (fun _ h => h) (fun _ _ _ h h' hu => h (h' hu)) hf as b

theorem Inward.ite {p : Prop} [Decidable p] {x y : EStateM ε σ α} (hx : Inward W x)
    (hy : Inward W y) : Inward W (if p then x else y) := by
  split
  · exact hx
  · exact hy

/-! ## Computations that follow one another -/

/-- When `y` answers from `t` within the bound, then `x`, which ends within the bound from `s`, answers
as well, and the two outcomes are related. -/
def Follows (W : σ → Prop) (s t : σ) (x : EStateM ε σ α) (y : EStateM ε σ β)
    (R : α → β → σ → σ → Prop) : Prop :=
  ∀ b t', y t = .ok b t' → W t' → W (after x s) → ∃ a s', x s = .ok a s' ∧ R a b s' t'

variable {s t : σ} {R : α → β → σ → σ → Prop} {R' : γ → δ → σ → σ → Prop}

theorem Follows.pure {a : α} {b : β} (h : R a b s t) :
    Follows W s t (pure a : EStateM ε σ α) (pure b : EStateM ε σ β) R := by
  intro b' t' hy _ _
  cases hy
  exact ⟨a, s, rfl, h⟩

theorem Follows.throw {x : EStateM ε σ α} {e : ε} :
    Follows W s t x (throw e : EStateM ε σ β) R := by
  intro b t' hy
  cases hy

theorem Follows.mono {x : EStateM ε σ α} {y : EStateM ε σ β} {Q : α → β → σ → σ → Prop}
    (h : Follows W s t x y R) (hq : ∀ a b s' t', R a b s' t' → Q a b s' t') :
    Follows W s t x y Q := by
  intro b t' hy ht hs
  obtain ⟨a, s', hx, hr⟩ := h b t' hy ht hs
  exact ⟨a, s', hx, hq a b s' t' hr⟩

/-- Only the outcomes from the two states matter. -/
theorem Follows.congr {x x' : EStateM ε σ α} {y y' : EStateM ε σ β} (h : Follows W s t x' y' R)
    (hx : x s = x' s) (hy : y t = y' t) : Follows W s t x y R := by
  intro b t' hb ht hs
  have hafter : after x s = after x' s := by
    unfold after
    rw [hx]
  rw [hx]
  exact h b t' (hy ▸ hb) ht (hafter ▸ hs)

theorem Follows.get {f : σ → EStateM ε σ γ} {g : σ → EStateM ε σ δ}
    (h : Follows W s t (f s) (g t) R') :
    Follows W s t (get >>= f) (get >>= g) R' :=
  h

theorem Follows.ite {p : Prop} [Decidable p] {x x' : EStateM ε σ α} {y y' : EStateM ε σ β}
    (h : Follows W s t x y R) (h' : Follows W s t x' y' R) :
    Follows W s t (if p then x else x') (if p then y else y') R := by
  split
  · exact h
  · exact h'

/-- Steps that read the states only. -/
theorem Follows.ofExcept {x : Except ε α} {y : Except ε β} {f : α → EStateM ε σ γ}
    {g : β → EStateM ε σ δ} (hxy : ∀ b, y = .ok b → ∃ a, x = .ok a ∧ Follows W s t (f a) (g b) R') :
    Follows W s t (ofExcept x >>= f) (ofExcept y >>= g) R' := by
  intro d t' hy ht hs
  obtain ⟨b, t₁, hb, hg⟩ := bind_eq_ok_iff.1 hy
  obtain ⟨hread, rfl⟩ := ofExcept_eq_ok_iff.1 hb
  obtain ⟨a, rfl, hfg⟩ := hxy b hread
  exact hfg d _ hg ht hs

theorem Follows.bind {x : EStateM ε σ α} {y : EStateM ε σ β} {f : α → EStateM ε σ γ}
    {g : β → EStateM ε σ δ} (hxy : Follows W s t x y R)
    (hfg : ∀ a b s' t', x s = .ok a s' → y t = .ok b t' → W s' → W t' → R a b s' t' →
      Follows W s' t' (f a) (g b) R')
    (hf : ∀ a, Inward W (f a)) (hg : ∀ b, Inward W (g b)) :
    Follows W s t (x >>= f) (y >>= g) R' := by
  intro d t' hy ht hs
  obtain ⟨b, t₁, hb, hd⟩ := bind_eq_ok_iff.1 hy
  have ht₁ : W t₁ := (hg b).ok hd ht
  have hs₁ : W (after x s) := by
    cases hx : x s with
    | error e s₁ =>
      rw [after_of_error (bind_of_error hx)] at hs
      rw [after_of_error hx]
      exact hs
    | ok a s₁ =>
      rw [after_of_ok hx]
      refine hf a s₁ ?_
      rw [← after_bind_of_ok hx]
      exact hs
  obtain ⟨a, s₁, hx, hr⟩ := hxy b t₁ hb ht₁ hs₁
  rw [after_of_ok hx] at hs₁
  rw [after_bind_of_ok hx] at hs
  obtain ⟨c, s', hc, hr'⟩ := hfg a b s₁ t₁ hx hb hs₁ ht₁ hr d t' hd ht hs
  exact ⟨c, s', by rw [bind_of_ok hx]; exact hc, hr'⟩

theorem Follows.mapM_append {f : α → EStateM ε σ γ} {g : α → EStateM ε σ δ} {as : List α}
    {P : List γ → List δ → σ → σ → Prop} {cs : List γ} {ds : List δ}
    (hfg : ∀ a ∈ as, ∀ cs ds s t, P cs ds s t →
      Follows W s t (f a) (g a) fun c d s' t' => P (cs ++ [c]) (ds ++ [d]) s' t')
    (hf : ∀ a, Inward W (f a)) (hg : ∀ a, Inward W (g a)) (h : P cs ds s t) :
    Follows W s t (as.mapM f) (as.mapM g) fun cs' ds' s' t' => P (cs ++ cs') (ds ++ ds') s' t' := by
  induction as generalizing cs ds s t with
  | nil => exact Follows.pure (by simpa using h)
  | cons a as ih =>
    rw [List.mapM_cons, List.mapM_cons]
    refine Follows.bind (hfg a (List.mem_cons_self ..) cs ds s t h) (fun c d s' t' _ _ _ _ h' => ?_)
      (fun _ => Inward.bind (Inward.mapM hf as) fun _ => Inward.pure _)
      fun _ => Inward.bind (Inward.mapM hg as) fun _ => Inward.pure _
    refine Follows.bind (ih (fun a' ha => hfg a' (List.mem_cons_of_mem _ ha)) h')
      (fun cs' ds' s'' t'' _ _ _ _ h'' => ?_) (fun _ => Inward.pure _) fun _ => Inward.pure _
    exact Follows.pure (by simpa using h'')

/-- Two loops over the same list keep the relation of what they have answered so far. -/
theorem Follows.mapM {f : α → EStateM ε σ γ} {g : α → EStateM ε σ δ} {as : List α}
    {P : List γ → List δ → σ → σ → Prop}
    (hfg : ∀ a ∈ as, ∀ cs ds s t, P cs ds s t →
      Follows W s t (f a) (g a) fun c d s' t' => P (cs ++ [c]) (ds ++ [d]) s' t')
    (hf : ∀ a, Inward W (f a)) (hg : ∀ a, Inward W (g a)) (h : P [] [] s t) :
    Follows W s t (as.mapM f) (as.mapM g) P :=
  Follows.mapM_append hfg hf hg h

/-- Two folds over the same list keep what every pair of steps hands on. -/
theorem Follows.foldlM {f : γ → α → EStateM ε σ γ} {g : δ → α → EStateM ε σ δ} {as : List α}
    {c : γ} {d : δ}
    (hfg : ∀ a ∈ as, ∀ c d s t, R' c d s t → Follows W s t (f c a) (g d a) R')
    (hf : ∀ c a, Inward W (f c a)) (hg : ∀ d a, Inward W (g d a)) (h : R' c d s t) :
    Follows W s t (as.foldlM f c) (as.foldlM g d) R' := by
  induction as generalizing c d s t with
  | nil => exact Follows.pure h
  | cons a as ih =>
    rw [List.foldlM_cons, List.foldlM_cons]
    refine Follows.bind (hfg a (List.mem_cons_self ..) c d s t h) (fun c' d' s' t' _ _ _ _ h' => ?_)
      (fun c' => Inward.foldlM hf as c') fun d' => Inward.foldlM hg as d'
    exact ih (fun a' ha => hfg a' (List.mem_cons_of_mem _ ha)) h'

end Introspect
