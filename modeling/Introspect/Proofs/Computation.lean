import Introspect.Error
import Mathlib.Control.Monad.Basic

/-!
Computations with a state and failures: how an outcome splits over the steps, and what holds of the
state that is left behind, whether the computation answers or fails.

* `bind_eq_ok_iff`, `bind_eq_error_iff`: the outcomes of two steps in a row.
* `foldlM_induct`: what every step of a loop hands on.
* `Folds.lockstep`, `Folds.perm`: the steps of two loops, and those of one loop in another order.
* `Moves.mapM`, `Moves.foldlM`: a relation that every step respects is respected by a whole loop.
* `Atomic.bind`: what is left by a failure when only the last step changes anything.
* `Replays.mapM`: a loop whose steps answer the same in every later state does so itself.
* `Raises.mapM`: a property of the failures of every step is one of the failures of the loop.
-/

namespace Introspect

section Outcomes

variable {ε σ α β : Type}

/-- The state a computation leaves behind. -/
def after (x : EStateM ε σ α) (s : σ) : σ :=
  match x s with
  | .ok _ s' => s'
  | .error _ s' => s'

theorem after_of_ok {x : EStateM ε σ α} {s s' : σ} {a : α} (h : x s = .ok a s') :
    after x s = s' := by
  simp only [after, h]

theorem after_of_error {x : EStateM ε σ α} {s s' : σ} {e : ε} (h : x s = .error e s') :
    after x s = s' := by
  simp only [after, h]

/-- What a computation answers or fails with. -/
def outcome (x : EStateM ε σ α) (s : σ) : Except ε α :=
  match x s with
  | .ok a _ => .ok a
  | .error e _ => .error e

theorem outcome_of_ok {x : EStateM ε σ α} {s s' : σ} {a : α} (h : x s = .ok a s') :
    outcome x s = .ok a := by
  simp only [outcome, h]

theorem outcome_of_error {x : EStateM ε σ α} {s s' : σ} {e : ε} (h : x s = .error e s') :
    outcome x s = .error e := by
  simp only [outcome, h]

theorem eq_ok_of_outcome {x : EStateM ε σ α} {s : σ} {a : α} (h : outcome x s = .ok a) :
    x s = .ok a (after x s) := by
  cases hx : x s with
  | ok b s' => rw [outcome_of_ok hx] at h; cases h; rw [after_of_ok hx]
  | error e s' => rw [outcome_of_error hx] at h; cases h

theorem eq_error_of_outcome {x : EStateM ε σ α} {s : σ} {e : ε} (h : outcome x s = .error e) :
    x s = .error e (after x s) := by
  cases hx : x s with
  | ok b s' => rw [outcome_of_ok hx] at h; cases h
  | error e' s' => rw [outcome_of_error hx] at h; cases h; rw [after_of_error hx]

theorem get_apply (s : σ) : (get : EStateM ε σ σ) s = .ok s s := rfl

theorem bind_apply (x : EStateM ε σ α) (f : α → EStateM ε σ β) (s : σ) :
    (x >>= f) s =
      match x s with
      | .ok a s' => f a s'
      | .error e s' => .error e s' := rfl

theorem bind_of_ok {x : EStateM ε σ α} {f : α → EStateM ε σ β} {s s' : σ} {a : α}
    (h : x s = .ok a s') : (x >>= f) s = f a s' := by
  rw [bind_apply, h]

theorem bind_of_error {x : EStateM ε σ α} {f : α → EStateM ε σ β} {s s' : σ} {e : ε}
    (h : x s = .error e s') : (x >>= f) s = .error e s' := by
  rw [bind_apply, h]

theorem bind_eq_ok_iff {x : EStateM ε σ α} {f : α → EStateM ε σ β} {s t : σ} {b : β} :
    (x >>= f) s = .ok b t ↔ ∃ a s', x s = .ok a s' ∧ f a s' = .ok b t := by
  rw [bind_apply]
  constructor
  · intro h
    cases hx : x s with
    | ok a s' => rw [hx] at h; exact ⟨a, s', rfl, h⟩
    | error e s' => rw [hx] at h; cases h
  · rintro ⟨a, s', hx, hf⟩
    rw [hx]
    exact hf

theorem bind_eq_error_iff {x : EStateM ε σ α} {f : α → EStateM ε σ β} {s t : σ} {e : ε} :
    (x >>= f) s = .error e t ↔
      x s = .error e t ∨ ∃ a s', x s = .ok a s' ∧ f a s' = .error e t := by
  rw [bind_apply]
  constructor
  · intro h
    cases hx : x s with
    | ok a s' => rw [hx] at h; exact .inr ⟨a, s', rfl, h⟩
    | error e' s' => rw [hx] at h; cases h; exact .inl rfl
  · rintro (hx | ⟨a, s', hx, hf⟩)
    · rw [hx]
    · rw [hx]
      exact hf

theorem after_bind_of_ok {x : EStateM ε σ α} {f : α → EStateM ε σ β} {s s' : σ} {a : α}
    (h : x s = .ok a s') : after (x >>= f) s = after (f a) s' := by
  unfold after
  rw [bind_of_ok h]

theorem after_bind_pure (x : EStateM ε σ α) (b : β) (s : σ) :
    after (x >>= fun _ => pure b) s = after x s := by
  unfold after
  rw [bind_apply]
  cases x s <;> rfl

theorem after_discard (x : EStateM ε σ α) (s : σ) : after (discard x) s = after x s := by
  show after (EStateM.map (Function.const _ ()) x) s = after x s
  unfold after EStateM.map
  cases x s <;> rfl

theorem discard_of_ok {x : EStateM ε σ α} {s s' : σ} {a : α} (h : x s = .ok a s') :
    discard x s = .ok () s' := by
  show EStateM.map (Function.const _ ()) x s = .ok () s'
  rw [EStateM.map, h]

theorem ofExcept_ok (a : α) (s : σ) : (ofExcept (.ok a) : EStateM ε σ α) s = .ok a s := rfl

theorem ofExcept_error (e : ε) (s : σ) :
    (ofExcept (.error e) : EStateM ε σ α) s = .error e s := rfl

theorem ofExcept_eq_ok_iff {x : Except ε α} {s s' : σ} {a : α} :
    (ofExcept x : EStateM ε σ α) s = .ok a s' ↔ x = .ok a ∧ s' = s := by
  cases x with
  | ok b =>
    rw [ofExcept_ok]
    constructor
    · intro h; cases h; exact ⟨rfl, rfl⟩
    · rintro ⟨h, rfl⟩; cases h; rfl
  | error e =>
    rw [ofExcept_error]
    constructor
    · intro h; cases h
    · rintro ⟨h, -⟩; cases h

theorem ofExcept_eq_error_iff {x : Except ε α} {s s' : σ} {e : ε} :
    (ofExcept x : EStateM ε σ α) s = .error e s' ↔ x = .error e ∧ s' = s := by
  cases x with
  | ok b =>
    rw [ofExcept_ok]
    constructor
    · intro h; cases h
    · rintro ⟨h, -⟩; cases h
  | error e' =>
    rw [ofExcept_error]
    constructor
    · intro h; cases h; exact ⟨rfl, rfl⟩
    · rintro ⟨h, rfl⟩; cases h; rfl

/-! ## Loops that answer -/

theorem mapM_cons_eq_ok {f : α → EStateM ε σ β} {a : α} {as : List α} {s t : σ} {bs : List β}
    (h : (a :: as).mapM f s = .ok bs t) :
    ∃ b s' rest, f a s = .ok b s' ∧ as.mapM f s' = .ok rest t ∧ bs = b :: rest := by
  rw [List.mapM_cons] at h
  obtain ⟨b, s', hb, h⟩ := bind_eq_ok_iff.1 h
  obtain ⟨rest, s'', hrest, h⟩ := bind_eq_ok_iff.1 h
  cases h
  exact ⟨b, s', rest, hb, hrest, rfl⟩

theorem foldlM_append_eq_ok {f : β → α → EStateM ε σ β} {as as' : List α} {b c : β} {s t : σ} :
    (as ++ as').foldlM f b s = .ok c t ↔
      ∃ b' s', as.foldlM f b s = .ok b' s' ∧ as'.foldlM f b' s' = .ok c t := by
  rw [List.foldlM_append]
  exact bind_eq_ok_iff

theorem foldlM_cons_eq_ok {f : β → α → EStateM ε σ β} {a : α} {as : List α} {b c : β} {s t : σ} :
    (a :: as).foldlM f b s = .ok c t ↔
      ∃ b' s', f b a s = .ok b' s' ∧ as.foldlM f b' s' = .ok c t := by
  rw [List.foldlM_cons]
  exact bind_eq_ok_iff

/-- What every step of a loop hands on, of the elements it has gone through and the state as well, holds at
its end. -/
theorem foldlM_history {f : β → α → EStateM ε σ β} {P : List α → β → σ → Prop} {as : List α}
    (hf : ∀ done, ∀ a ∈ as, ∀ b s b' s', P done b s → f b a s = .ok b' s' → P (done ++ [a]) b' s')
    (done : List α) {b c : β} {s t : σ} (hb : P done b s) (h : as.foldlM f b s = .ok c t) :
    P (done ++ as) c t := by
  induction as generalizing done b s with
  | nil => cases h; rwa [List.append_nil]
  | cons a as ih =>
    obtain ⟨b', s', hstep, hrest⟩ := foldlM_cons_eq_ok.1 h
    have hnext := ih (fun done' a' ha => hf done' a' (List.mem_cons_of_mem _ ha)) (done ++ [a])
      (hf done a (List.mem_cons_self ..) b s b' s' hb hstep) hrest
    rwa [List.append_assoc] at hnext

/-- What every step of a loop hands on, its answer has. -/
theorem foldlM_induct {f : β → α → EStateM ε σ β} {P : β → Prop} {as : List α}
    (hf : ∀ a ∈ as, ∀ b s b' s', P b → f b a s = .ok b' s' → P b') {b c : β} {s t : σ} (hb : P b)
    (h : as.foldlM f b s = .ok c t) : P c :=
  foldlM_history (P := fun _ b _ => P b) (fun _ => hf) [] hb h

/-- The elements of a list lead from one value to another, each by a step. -/
inductive Folds (step : β → α → β → Prop) : List α → β → β → Prop
  | nil (b : β) : Folds step [] b b
  | cons {a : α} {as : List α} {b b' c : β} (head : step b a b') (tail : Folds step as b' c) :
      Folds step (a :: as) b c

/-- What is known of the steps of a loop, once it is known where the loop ends: `I` holds on the way there, and
`E` of whatever leads to the end. -/
theorem Folds.of_foldlM {f : β → α → EStateM ε σ β} {step : β → α → β → Prop} {I : β → σ → Prop}
    {E : σ → Prop} {as : List α}
    (hkeep : ∀ a ∈ as, ∀ b s b' s', I b s → f b a s = .ok b' s' → I b' s' ∧ (E s' → E s))
    (hstep : ∀ a ∈ as, ∀ b s b' s', I b s → f b a s = .ok b' s' → E s' → step b a b') {b c : β} {s t : σ}
    (hb : I b s) (h : as.foldlM f b s = .ok c t) (ht : E t) : Folds step as b c ∧ I c t ∧ E s := by
  induction as generalizing b s with
  | nil => cases h; exact ⟨.nil _, hb, ht⟩
  | cons a as ih =>
    obtain ⟨b', s', ha, hrest⟩ := foldlM_cons_eq_ok.1 h
    obtain ⟨hb', hback⟩ := hkeep a List.mem_cons_self b s b' s' hb ha
    obtain ⟨hfolds, hc, hs'⟩ := ih (fun a' ha' => hkeep a' (List.mem_cons_of_mem a ha'))
      (fun a' ha' => hstep a' (List.mem_cons_of_mem a ha')) hb' hrest
    exact ⟨.cons (hstep a List.mem_cons_self b s b' s' hb ha hs') hfolds, hc, hback hs'⟩

/-- Two folds over one list keep what every pair of steps hands on. -/
theorem Folds.lockstep {γ : Type} {step : β → α → β → Prop} {step' : γ → α → γ → Prop} {P : β → γ → Prop}
    {as : List α} (hstep : ∀ b c a b' c', P b c → step b a b' → step' c a c' → P b' c') {b b' : β} {c c' : γ}
    (h : Folds step as b b') (h' : Folds step' as c c') (hP : P b c) : P b' c' := by
  induction h generalizing c with
  | nil b => cases h'; exact hP
  | cons head tail ih =>
    cases h' with
    | cons head' tail' => exact ih tail' (hstep _ _ _ _ _ hP head head')

/-- Where the steps of any two elements may be swapped, every order of the elements leads to the same value. -/
theorem Folds.perm {step : β → α → β → Prop} {D : α → α → Prop} (hsymm : ∀ {x y}, D x y → D y x)
    (hswap : ∀ {x y b b' c}, D x y → step b x b' → step b' y c → ∃ d, step b y d ∧ step d x c)
    {as bs : List α} (hperm : as.Perm bs) (hpairwise : as.Pairwise D) {b c : β} (h : Folds step as b c) :
    Folds step bs b c := by
  induction hperm generalizing b with
  | nil => exact h
  | cons a _ ih =>
    cases h with
    | cons head tail => exact .cons head (ih (List.pairwise_cons.1 hpairwise).2 tail)
  | swap x y as =>
    cases h with
    | cons head tail =>
      cases tail with
      | cons head' tail =>
        obtain ⟨d, hx, hy⟩ := hswap ((List.pairwise_cons.1 hpairwise).1 x List.mem_cons_self) head head'
        exact .cons hx (.cons hy tail)
  | trans hperm _ ih ih' => exact ih' ((hperm.pairwise_iff hsymm).1 hpairwise) (ih hpairwise h)

/-- Every answer of a loop is an answer of one of its steps. -/
theorem forall_mem_of_mapM {f : α → EStateM ε σ β} {P : β → Prop} {as : List α}
    (hf : ∀ a ∈ as, ∀ s b s', f a s = .ok b s' → P b) {s t : σ} {bs : List β}
    (h : as.mapM f s = .ok bs t) : ∀ b ∈ bs, P b := by
  induction as generalizing s bs with
  | nil => cases h; simp
  | cons a as ih =>
    obtain ⟨b, s', rest, hb, hrest, rfl⟩ := mapM_cons_eq_ok h
    have hP := hf a (List.mem_cons_self ..) s b s' hb
    have hPs := ih (fun a' ha => hf a' (List.mem_cons_of_mem _ ha)) hrest
    simpa using ⟨hP, hPs⟩

/-- When every step answers a value of its element, the loop answers these values. -/
theorem mapM_eq_map {f : α → EStateM ε σ β} {g : α → β} {as : List α}
    (hf : ∀ a ∈ as, ∀ s b s', f a s = .ok b s' → b = g a) {s t : σ} {bs : List β}
    (h : as.mapM f s = .ok bs t) : bs = as.map g := by
  induction as generalizing s bs with
  | nil => cases h; rfl
  | cons a as ih =>
    obtain ⟨b, s', rest, hb, hrest, rfl⟩ := mapM_cons_eq_ok h
    rw [List.map_cons, hf a (List.mem_cons_self ..) s b s' hb,
      ih (fun a' ha => hf a' (List.mem_cons_of_mem _ ha)) hrest]

/-- When every step answers a value of its element in the states that hold, the loop answers these values. -/
theorem mapM_total {f : α → EStateM ε σ β} {g : α → β} {P : σ → Prop} {as : List α}
    (hf : ∀ a ∈ as, ∀ s, P s → ∃ s', f a s = .ok (g a) s' ∧ P s') {s : σ} (hs : P s) :
    ∃ s', as.mapM f s = .ok (as.map g) s' ∧ P s' := by
  induction as generalizing s with
  | nil => exact ⟨s, rfl, hs⟩
  | cons a as ih =>
    obtain ⟨s₁, ha, hs₁⟩ := hf a List.mem_cons_self s hs
    obtain ⟨s₂, has, hs₂⟩ := ih (fun a' ha' => hf a' (List.mem_cons_of_mem a ha')) hs₁
    refine ⟨s₂, ?_, hs₂⟩
    rw [List.mapM_cons, bind_of_ok ha, bind_of_ok has]
    rfl

/-- A loop answers what another one answers, when its steps answer what the other's steps answer in the states
that hold. -/
theorem mapM_eq_ok_of {f g : α → EStateM ε σ β} {I : σ → Prop} {as : List α}
    (hfg : ∀ a ∈ as, ∀ s b s', I s → f a s = .ok b s' → g a s = .ok b s' ∧ I s') {s t : σ} {bs : List β}
    (hs : I s) (h : as.mapM f s = .ok bs t) : as.mapM g s = .ok bs t := by
  induction as generalizing s bs with
  | nil => exact h
  | cons a as ih =>
    obtain ⟨b, s', rest, hb, hrest, rfl⟩ := mapM_cons_eq_ok h
    obtain ⟨hg, hs'⟩ := hfg a List.mem_cons_self s b s' hs hb
    have hgs := ih (fun a' ha' => hfg a' (List.mem_cons_of_mem a ha')) hs' hrest
    rw [List.mapM_cons, bind_of_ok hg, bind_of_ok hgs]
    rfl

/-- Steps that answer what they are given and leave the state alone make a loop that does so. -/
theorem mapM_eq_self {f : α → EStateM ε σ α} {as : List α} {s : σ}
    (hf : ∀ a ∈ as, f a s = .ok a s) : as.mapM f s = .ok as s := by
  induction as with
  | nil => rfl
  | cons a as ih =>
    rw [List.mapM_cons, bind_of_ok (hf a (List.mem_cons_self ..)),
      bind_of_ok (ih fun a' ha => hf a' (List.mem_cons_of_mem _ ha))]
    rfl

end Outcomes

/-! ## What is left behind -/

section Left

variable {ε σ α β : Type} {R : σ → σ → Prop}

/-- The state afterwards stands in relation to the state before, whatever the outcome. -/
def Moves (R : σ → σ → Prop) (x : EStateM ε σ α) : Prop := ∀ s, R s (after x s)

theorem Moves.ok {x : EStateM ε σ α} (hx : Moves R x) {s s' : σ} {a : α}
    (h : x s = .ok a s') : R s s' :=
  after_of_ok h ▸ hx s

theorem Moves.error {x : EStateM ε σ α} (hx : Moves R x) {s s' : σ} {e : ε}
    (h : x s = .error e s') : R s s' :=
  after_of_error h ▸ hx s

theorem Moves.mono {R' : σ → σ → Prop} {x : EStateM ε σ α} (hx : Moves R x)
    (h : ∀ s t, R s t → R' s t) : Moves R' x :=
  fun s => h _ _ (hx s)

theorem Moves.pure (hrefl : ∀ s, R s s) (a : α) : Moves R (pure a : EStateM ε σ α) :=
  fun s => hrefl s

theorem Moves.throw (hrefl : ∀ s, R s s) (e : ε) : Moves R (throw e : EStateM ε σ α) :=
  fun s => hrefl s

theorem Moves.get (hrefl : ∀ s, R s s) : Moves R (get : EStateM ε σ σ) :=
  fun s => hrefl s

theorem Moves.ofExcept (hrefl : ∀ s, R s s) (x : Except ε α) :
    Moves R (ofExcept x : EStateM ε σ α) := by
  intro s
  cases x with
  | ok a => exact hrefl s
  | error e => exact hrefl s

theorem Moves.modifyGet {f : σ → α × σ} (hf : ∀ s, R s (f s).2) :
    Moves R (modifyGet f : EStateM ε σ α) :=
  fun s => hf s

theorem Moves.discard {x : EStateM ε σ α} (hx : Moves R x) : Moves R (discard x) := by
  intro s
  rw [after_discard]
  exact hx s

/-- The second step need only move from where an answer of the first one leads. -/
theorem Moves.bindOf (htrans : ∀ s t u, R s t → R t u → R s u) {x : EStateM ε σ α}
    {f : α → EStateM ε σ β} (hx : Moves R x) (hf : ∀ s a s', x s = .ok a s' → Moves R (f a)) :
    Moves R (x >>= f) := by
  intro s
  have h := hx s
  unfold after at h ⊢
  rw [bind_apply]
  cases hs : x s with
  | ok a s' =>
    rw [hs] at h
    exact htrans _ _ _ h (hf s a s' hs s')
  | error e s' =>
    rw [hs] at h
    exact h

theorem Moves.bind (htrans : ∀ s t u, R s t → R t u → R s u) {x : EStateM ε σ α}
    {f : α → EStateM ε σ β} (hx : Moves R x) (hf : ∀ a, Moves R (f a)) : Moves R (x >>= f) :=
  Moves.bindOf htrans hx fun _ a _ _ => hf a

theorem Moves.mapM (hrefl : ∀ s, R s s) (htrans : ∀ s t u, R s t → R t u → R s u)
    {f : α → EStateM ε σ β} {as : List α} (hf : ∀ a ∈ as, Moves R (f a)) :
    Moves R (as.mapM f) := by
  induction as with
  | nil => exact Moves.pure hrefl _
  | cons a as ih =>
    rw [List.mapM_cons]
    refine Moves.bind htrans (hf a (List.mem_cons_self ..)) fun _ => ?_
    refine Moves.bind htrans (ih fun a' ha => hf a' (List.mem_cons_of_mem _ ha)) fun _ => ?_
    exact Moves.pure hrefl _

theorem Moves.foldlM (hrefl : ∀ s, R s s) (htrans : ∀ s t u, R s t → R t u → R s u)
    {f : β → α → EStateM ε σ β} (hf : ∀ b a, Moves R (f b a)) (as : List α) (b : β) :
    Moves R (as.foldlM f b) := by
  induction as generalizing b with
  | nil => exact Moves.pure hrefl _
  | cons a as ih =>
    rw [List.foldlM_cons]
    exact Moves.bind htrans (hf b a) ih

end Left

/-- Every answer of a loop that moves along is an answer of a step on the way. -/
theorem forall_mem_of_mapM_between {ε σ α β : Type} {R : σ → σ → Prop} (hrefl : ∀ s, R s s)
    (htrans : ∀ s t u, R s t → R t u → R s u) {f : α → EStateM ε σ β} {P : β → Prop} {as : List α}
    (hm : ∀ a, Moves R (f a)) {s t : σ} {bs : List β} (h : as.mapM f s = .ok bs t)
    (hf : ∀ a ∈ as, ∀ s' b t', R s s' → R t' t → f a s' = .ok b t' → P b) : ∀ b ∈ bs, P b := by
  induction as generalizing s bs with
  | nil =>
    cases h
    intro b hb
    cases hb
  | cons a as ih =>
    obtain ⟨b, s', rest, hb, hrest, rfl⟩ := mapM_cons_eq_ok h
    have hst : R s s' := (hm a).ok hb
    have htt : R s' t := (Moves.mapM hrefl htrans fun a _ => hm a).ok hrest
    have hP : P b := hf a (List.mem_cons_self ..) s b s' (hrefl s) htt hb
    have hPs := ih hrest fun a' ha u c u' hu hu' hc =>
      hf a' (List.mem_cons_of_mem _ ha) u c u' (htrans _ _ _ hst hu) hu' hc
    intro c hc
    rcases List.mem_cons.1 hc with rfl | hc
    · exact hP
    · exact hPs c hc

/-- The failure of a loop that moves along is one of a step on the way. -/
theorem mapM_error_between {ε σ α β : Type} {R : σ → σ → Prop} (hrefl : ∀ s, R s s)
    (htrans : ∀ s t u, R s t → R t u → R s u) {f : α → EStateM ε σ β} {as : List α}
    (hm : ∀ a, Moves R (f a)) {s t : σ} {e : ε} (h : as.mapM f s = .error e t) :
    ∃ a ∈ as, ∃ s' t', R s s' ∧ f a s' = .error e t' := by
  induction as generalizing s with
  | nil => cases h
  | cons a as ih =>
    rw [List.mapM_cons] at h
    rcases bind_eq_error_iff.1 h with ha | ⟨b, s', hb, hrest⟩
    · exact ⟨a, List.mem_cons_self .., s, t, hrefl s, ha⟩
    · rcases bind_eq_error_iff.1 hrest with hrest | ⟨bs, s'', -, hpure⟩
      · obtain ⟨a', ha', u, u', hu, hf⟩ := ih hrest
        exact ⟨a', List.mem_cons_of_mem _ ha', u, u', htrans _ _ _ ((hm a).ok hb) hu, hf⟩
      · cases hpure

/-! ## What a failure leaves behind -/

section Failed

variable {ε σ α β : Type} {R : σ → σ → Prop} {s : σ}

/-- If the computation fails in this state, what it leaves stands in relation to it. -/
def Atomic (R : σ → σ → Prop) (x : EStateM ε σ α) (s : σ) : Prop :=
  ∀ e s', x s = .error e s' → R s s'

theorem Atomic.of_ok {x : EStateM ε σ α} {s' : σ} {a : α} (h : x s = .ok a s') : Atomic R x s := by
  intro e t he
  rw [h] at he
  cases he

theorem Atomic.of_moves {x : EStateM ε σ α} (hx : Moves R x) : Atomic R x s :=
  fun _ _ h => hx.error h

/-- Only the last step may do more than the relation allows, and it fails before it does. -/
theorem Atomic.bind (htrans : ∀ s t u, R s t → R t u → R s u) {x : EStateM ε σ α}
    {f : α → EStateM ε σ β} (hx : Moves R x) (hf : ∀ a s', x s = .ok a s' → Atomic R (f a) s') :
    Atomic R (x >>= f) s := by
  intro e t h
  rcases bind_eq_error_iff.1 h with h | ⟨a, s', ha, h⟩
  · exact hx.error h
  · exact htrans _ _ _ (hx.ok ha) (hf a s' ha e t h)

/-- A step that cannot fail may follow. -/
theorem Atomic.andThen {x : EStateM ε σ α} {f : α → EStateM ε σ β} (hx : Atomic R x s)
    (hf : ∀ a s', ∃ b t, f a s' = .ok b t) : Atomic R (x >>= f) s := by
  intro e t h
  rcases bind_eq_error_iff.1 h with h | ⟨a, s', -, h⟩
  · exact hx e t h
  · obtain ⟨b, u, hb⟩ := hf a s'
    rw [hb] at h
    cases h

end Failed

/-! ## Doing it again -/

section Again

variable {ε σ α β : Type} {R : σ → σ → Prop}

/-- Once it has answered, the computation answers the same in every state that stands in relation to the
one it left, and leaves that state alone. -/
def Replays (R : σ → σ → Prop) (x : EStateM ε σ α) : Prop :=
  ∀ s a s' u, x s = .ok a s' → R s' u → x u = .ok a u

theorem Replays.pure (a : α) : Replays R (pure a : EStateM ε σ α) := by
  intro s b s' u h _
  cases h
  rfl

theorem Replays.throw (e : ε) : Replays R (throw e : EStateM ε σ α) := by
  intro s b s' u h _
  cases h

theorem Replays.bind (htrans : ∀ s t u, R s t → R t u → R s u) {x : EStateM ε σ α}
    {f : α → EStateM ε σ β} (hx : Replays R x) (hf : ∀ a, Replays R (f a))
    (hm : ∀ a, Moves R (f a)) : Replays R (x >>= f) := by
  intro s b s' u h hu
  obtain ⟨a, t, ha, hb⟩ := bind_eq_ok_iff.1 h
  have ht : R t u := htrans _ _ _ ((hm a).ok hb) hu
  rw [bind_of_ok (hx s a t u ha ht)]
  exact hf a t b s' u hb hu

theorem Replays.mapM (hrefl : ∀ s, R s s) (htrans : ∀ s t u, R s t → R t u → R s u)
    {f : α → EStateM ε σ β} (hf : ∀ a, Replays R (f a)) (hm : ∀ a, Moves R (f a)) (as : List α) :
    Replays R (as.mapM f) := by
  induction as with
  | nil => exact Replays.pure _
  | cons a as ih =>
    rw [List.mapM_cons]
    refine Replays.bind htrans (hf a) (fun b => ?_) fun b => ?_
    · exact Replays.bind htrans ih (fun _ => Replays.pure _) fun _ => Moves.pure hrefl _
    · exact Moves.bind htrans (Moves.mapM hrefl htrans fun a _ => hm a) fun _ => Moves.pure hrefl _

/-- Each step of a loop that has answered answers the same in every later state. -/
theorem Replays.each (hrefl : ∀ s, R s s) (htrans : ∀ s t u, R s t → R t u → R s u)
    {f : α → EStateM ε σ β} (hf : ∀ a, Replays R (f a)) (hm : ∀ a, Moves R (f a)) {as : List α}
    {s s' u : σ} {bs : List β} (h : as.mapM f s = .ok bs s') (hu : R s' u) :
    (∀ a ∈ as, ∃ b, f a u = .ok b u) ∧
      ∀ g : α → β, (∀ a ∈ as, ∀ b, f a u = .ok b u → b = g a) → bs = as.map g := by
  induction as generalizing s bs with
  | nil =>
    cases h
    exact ⟨fun a ha => (by cases ha), fun g _ => rfl⟩
  | cons a as ih =>
    obtain ⟨b, s₁, rest, hb, hrest, rfl⟩ := mapM_cons_eq_ok h
    have hs₁ : R s₁ u := htrans _ _ _ ((Moves.mapM hrefl htrans fun a _ => hm a).ok hrest) hu
    have hfirst := hf a s b s₁ u hb hs₁
    obtain ⟨hall, hmap⟩ := ih hrest
    refine ⟨fun a' ha' => ?_, fun g hg => ?_⟩
    · rcases List.mem_cons.1 ha' with rfl | ha'
      · exact ⟨b, hfirst⟩
      · exact hall a' ha'
    · rw [List.map_cons, hg a List.mem_cons_self b hfirst,
        hmap g fun a' ha' => hg a' (List.mem_cons_of_mem a ha')]

end Again

/-! ## Failures -/

section Failures

variable {ε σ α β : Type} {P : ε → Prop}

/-- Every failure of the computation has the property. -/
def Raises (P : ε → Prop) (x : EStateM ε σ α) : Prop := ∀ s e s', x s = .error e s' → P e

theorem Raises.mono {Q : ε → Prop} {x : EStateM ε σ α} (hx : Raises P x) (h : ∀ e, P e → Q e) :
    Raises Q x :=
  fun s e s' hs => h e (hx s e s' hs)

theorem Raises.pure (a : α) : Raises P (pure a : EStateM ε σ α) := by
  intro s e s' h
  cases h

theorem Raises.get : Raises P (get : EStateM ε σ σ) := by
  intro s e s' h
  cases h

theorem Raises.throw {e : ε} (he : P e) : Raises P (throw e : EStateM ε σ α) := by
  intro s e' s' h
  cases h
  exact he

theorem Raises.ofExcept {x : Except ε α} (hx : ∀ e, x = .error e → P e) :
    Raises P (ofExcept x : EStateM ε σ α) := by
  intro s e s' h
  exact hx e (ofExcept_eq_error_iff.1 h).1

theorem Raises.bind {x : EStateM ε σ α} {f : α → EStateM ε σ β} (hx : Raises P x)
    (hf : ∀ a, Raises P (f a)) : Raises P (x >>= f) := by
  intro s e t h
  rcases bind_eq_error_iff.1 h with h | ⟨a, s', -, h⟩
  · exact hx s e t h
  · exact hf a s' e t h

theorem Raises.mapM {f : α → EStateM ε σ β} (hf : ∀ a, Raises P (f a)) (as : List α) :
    Raises P (as.mapM f) := by
  induction as with
  | nil => exact Raises.pure _
  | cons a as ih =>
    rw [List.mapM_cons]
    exact Raises.bind (hf a) fun _ => Raises.bind ih fun _ => Raises.pure _

end Failures

/-! ## Without a state -/

theorem except_bind_eq_ok {ε α β : Type} {x : Except ε α} {f : α → Except ε β} {b : β}
    (h : x >>= f = .ok b) : ∃ a, x = .ok a ∧ f a = .ok b := by
  cases x with
  | error e => cases h
  | ok a => exact ⟨a, rfl, h⟩

theorem except_map_eq_ok {ε α β : Type} {x : Except ε α} {f : α → β} {b : β}
    (h : x.map f = .ok b) : ∃ a, x = .ok a ∧ f a = b := by
  cases x with
  | error e => cases h
  | ok a =>
    cases h
    exact ⟨a, rfl, rfl⟩

/-- Outcomes that look the same are failures of one kind, or answers that look the same. -/
theorem except_map_eq_map {ε α β : Type} {k : α → β} {x y : Except ε α} (h : x.map k = y.map k) :
    (∃ e, x = .error e ∧ y = .error e) ∨ ∃ a b, x = .ok a ∧ y = .ok b ∧ k a = k b := by
  cases x with
  | error e =>
    cases y with
    | error e' => cases h; exact .inl ⟨e, rfl, rfl⟩
    | ok b => cases h
  | ok a =>
    cases y with
    | error e => cases h
    | ok b => exact .inr ⟨a, b, rfl, rfl, Except.ok.inj h⟩

end Introspect
