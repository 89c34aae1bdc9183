import Introspect.Models.Initialization
import Introspect.Proofs.Computation

/-!
The search of a model, step by step: each computation of the registry as one equation over the registry
it starts from.

* `cachedModel_apply`: a model of the cache, or a new one at its end.
* `modelWithin_step`: the search fails, ends at a class, or goes on from the superclass it stands for.
* `ofType_apply`: a lookup finds a model and initializes it.
-/

namespace Introspect

/-- The superclass whose models stand for those of a synthetic class. -/
def Class.redirect? (c : Class) : Option TypeExpr := if c.synthetic then c.superclass else none

theorem Class.redirect?_supertype {c : Class} {superclass : TypeExpr}
    (h : c.redirect? = some superclass) : superclass ∈ c.supertypes := by
  unfold redirect? at h
  split at h
  · simp [supertypes, h]
  · cases h

namespace Registry

/-! ## Computations on the class table -/

theorem onTable_apply {α : Type} (x : TableM α) (r : Registry) :
    onTable x r =
      match x r.classes with
      | .ok a t => .ok a { r with classes := t }
      | .error e t => .error e { r with classes := t } := rfl

theorem onTable_eq_ok {α : Type} {x : TableM α} {r r' : Registry} {a : α}
    (h : onTable x r = .ok a r') : ∃ t, x r.classes = .ok a t ∧ r' = { r with classes := t } := by
  rw [onTable_apply] at h
  cases hx : x r.classes with
  | ok b t => rw [hx] at h; cases h; exact ⟨t, rfl, rfl⟩
  | error e t => rw [hx] at h; cases h

theorem onTable_eq_error {α : Type} {x : TableM α} {r r' : Registry} {e : Error}
    (h : onTable x r = .error e r') :
    ∃ t, x r.classes = .error e t ∧ r' = { r with classes := t } := by
  rw [onTable_apply] at h
  cases hx : x r.classes with
  | ok b t => rw [hx] at h; cases h
  | error e t => rw [hx] at h; cases h; exact ⟨t, rfl, rfl⟩

theorem after_onTable {α : Type} (x : TableM α) (r : Registry) :
    after (onTable x) r = { r with classes := after x r.classes } := by
  unfold after
  rw [onTable_apply]
  cases x r.classes <;> rfl

theorem onTable_raises {α : Type} {P : Error → Prop} {x : TableM α} (hx : Raises P x) :
    Raises P (onTable x) := by
  intro r e r' h
  obtain ⟨t, h, -⟩ := onTable_eq_error h
  exact hx _ _ _ h

theorem requireLive_apply (r : Registry) :
    requireLive r = if r.live then .ok () r else .error .registryDropped r := by
  unfold requireLive
  rw [bind_apply, get_apply]
  simp only
  cases r.live <;> rfl

theorem requireLive_eq_ok {r r' : Registry} {u : Unit} (h : requireLive r = .ok u r') : r' = r := by
  rw [requireLive_apply] at h
  split at h
  · cases h
    rfl
  · cases h

/-! ## Cache -/

/-- The key a class with type arguments is looked for by. -/
def keyFor (r : Registry) (c : Class) (raw : ClassId) (args : List TypeExpr) : ModelKey :=
  keyOf (r.kindOf c (r.codecs.find? c) args) raw args

/-- Without its arguments a kind that has none is decided the same. -/
theorem kindOf_of_no_arguments {r : Registry} {c : Class} {codec : Option Codec}
    {args : List TypeExpr} (h : (r.kindOf c codec args).hasArguments = false) :
    r.kindOf c codec [] = r.kindOf c codec args := by
  unfold kindOf at h ⊢
  generalize r.classes.isAssignable .list c.id = isList at h ⊢
  generalize r.classes.isAssignable .map c.id = isMap at h ⊢
  cases isList with
  | true => rfl
  | false =>
    cases isMap with
    | true => rfl
    | false =>
      generalize c.isArray = isArray at h ⊢
      generalize codec.isSome = isAtomic at h ⊢
      cases isArray with
      | true => rfl
      | false =>
        cases isAtomic with
        | true => rfl
        | false =>
          cases args with
          | nil => rfl
          | cons arg args => cases h

/-- The arguments of the key decide the kind as well as all arguments do. -/
theorem kindOf_key_args (r : Registry) (c : Class) (codec : Option Codec) (raw : ClassId)
    (args : List TypeExpr) :
    r.kindOf c codec (keyOf (r.kindOf c codec args) raw args).args = r.kindOf c codec args := by
  cases h : (r.kindOf c codec args).hasArguments with
  | true => simp [keyOf, h]
  | false =>
    have hargs : (keyOf (r.kindOf c codec args) raw args).args = [] := by simp [keyOf, h]
    rw [hargs]
    exact kindOf_of_no_arguments h

/-- The model the cache takes in when it has none of that key. -/
def newModel (r : Registry) (concrete : TypeExpr) (c : Class) (raw : ClassId)
    (args : List TypeExpr) : Model where
  id := r.models.length
  key := r.keyFor c raw args
  type := typeOf (r.kindOf c (r.codecs.find? c) args) raw concrete
  cls := c
  kind := r.kindOf c (r.codecs.find? c) args
  codec := r.codecs.find? c

/-- The registry with one model more. -/
def withModel (r : Registry) (m : Model) : Registry :=
  { r.logged .trace ("[model] created " ++ m.type.display ++ " (" ++ m.kind.label ++ ")") with
    models := r.models ++ [m] }

theorem cachedModel_apply (concrete : TypeExpr) (c : Class) (raw : ClassId) (args : List TypeExpr)
    (r : Registry) :
    cachedModel concrete c raw args r =
      match r.findModel? (r.keyFor c raw args) with
      | some m => .ok m r
      | none =>
        .ok (r.newModel concrete c raw args) (r.withModel (r.newModel concrete c raw args)) := by
  unfold cachedModel
  rw [bind_apply, get_apply]
  simp only [keyFor]
  cases hm : r.findModel? (keyOf (r.kindOf c (r.codecs.find? c) args) raw args) with
  | some m => rfl
  | none => rfl

/-- Making a model never fails. -/
theorem cachedModel_answers (concrete : TypeExpr) (c : Class) (raw : ClassId)
    (args : List TypeExpr) (r : Registry) : ∃ m r', cachedModel concrete c raw args r = .ok m r' := by
  rw [cachedModel_apply]
  cases r.findModel? (r.keyFor c raw args) with
  | some m => exact ⟨m, r, rfl⟩
  | none => exact ⟨_, _, rfl⟩

theorem cachedModel_classes {concrete : TypeExpr} {c : Class} {raw : ClassId}
    {args : List TypeExpr} {r r' : Registry} {m : Model}
    (h : cachedModel concrete c raw args r = .ok m r') : r'.classes = r.classes := by
  rw [cachedModel_apply] at h
  cases hm : r.findModel? (r.keyFor c raw args) with
  | some n => rw [hm] at h; cases h; rfl
  | none => rw [hm] at h; cases h; rfl

/-! ## Search -/

/-- One redirection of the search: the resolved superclass takes the place of the type. -/
def redirected (n : Nat) (superclass concrete : TypeExpr) : RegistryM Model := do
  modelWithin n (← onTable (ClassTable.resolve superclass concrete))

theorem modelWithin_apply (n : Nat) (ty : TypeExpr) (r : Registry) :
    modelWithin (n + 1) ty r =
      match ty.parts? with
      | none => .error (.internal (.unresolvedType ty)) r
      | some (raw, args) =>
        match r.classes.lookup raw with
        | .error e => .error e r
        | .ok c =>
          match c.redirect? with
          | some superclass => redirected n superclass ty r
          | none => cachedModel ty c raw args r := by
  rw [modelWithin]
  cases ty.parts? with
  | none => rfl
  | some p =>
    simp only
    rw [bind_apply, get_apply]
    simp only
    cases hc : r.classes.lookup p.1 with
    | error e => rw [bind_of_error (ofExcept_error e r)]
    | ok c =>
      rw [bind_of_ok (ofExcept_ok c r)]
      simp only [Class.redirect?]
      cases c.synthetic <;> cases c.superclass <;> rfl

/-- What a search does with its type: it fails for want of a class, ends at the class, or goes on from the
superclass that the class stands for. -/
inductive SearchStep (n : Nat) (ty : TypeExpr) (r : Registry) : Prop
  | classless (parts : ty.parts? = none)
      (search : modelWithin (n + 1) ty r = .error (.internal (.unresolvedType ty)) r)
  | undeclared (raw : ClassId) (args : List TypeExpr) (e : Error) (parts : ty.parts? = some (raw, args))
      (lookup : r.classes.lookup raw = .error e) (search : modelWithin (n + 1) ty r = .error e r)
  | ends (raw : ClassId) (args : List TypeExpr) (c : Class) (parts : ty.parts? = some (raw, args))
      (lookup : r.classes.lookup raw = .ok c) (direct : c.redirect? = none)
      (search : modelWithin (n + 1) ty r = cachedModel ty c raw args r)
  | goesOn (raw : ClassId) (args : List TypeExpr) (c : Class) (superclass : TypeExpr)
      (parts : ty.parts? = some (raw, args)) (lookup : r.classes.lookup raw = .ok c)
      (stands : c.redirect? = some superclass)
      (search : modelWithin (n + 1) ty r = redirected n superclass ty r)

theorem modelWithin_step (n : Nat) (ty : TypeExpr) (r : Registry) : SearchStep n ty r := by
  have happly := modelWithin_apply n ty r
  cases hp : ty.parts? with
  | none =>
    simp only [hp] at happly
    exact .classless hp happly
  | some p =>
    simp only [hp] at happly
    cases hc : r.classes.lookup p.1 with
    | error e =>
      simp only [hc] at happly
      exact .undeclared p.1 p.2 e hp hc happly
    | ok c =>
      simp only [hc] at happly
      cases hs : c.redirect? with
      | none =>
        simp only [hs] at happly
        exact .ends p.1 p.2 c hp hc hs happly
      | some superclass =>
        simp only [hs] at happly
        exact .goesOn p.1 p.2 c superclass hp hc hs happly

/-- What a search that answers did at its first class. -/
theorem modelWithin_succ_eq_ok {n : Nat} {ty : TypeExpr} {r r' : Registry} {m : Model}
    (h : modelWithin (n + 1) ty r = .ok m r') :
    ∃ raw args c, ty.parts? = some (raw, args) ∧ r.classes.lookup raw = .ok c ∧
      ((∃ superclass, c.redirect? = some superclass ∧ redirected n superclass ty r = .ok m r') ∨
        (c.redirect? = none ∧ cachedModel ty c raw args r = .ok m r')) := by
  cases modelWithin_step n ty r with
  | classless hp hsearch => rw [hsearch] at h; cases h
  | undeclared raw args e hp hc hsearch => rw [hsearch] at h; cases h
  | ends raw args c hp hc hd hsearch =>
    exact ⟨raw, args, c, hp, hc, .inr ⟨hd, hsearch.symm.trans h⟩⟩
  | goesOn raw args c superclass hp hc hs hsearch =>
    exact ⟨raw, args, c, hp, hc, .inl ⟨superclass, hs, hsearch.symm.trans h⟩⟩

/-- A search that begins with a class that stands for itself ends there. -/
theorem modelWithin_direct (n : Nat) {ty : TypeExpr} {raw : ClassId} {args : List TypeExpr} {c : Class}
    {r : Registry} (hp : ty.parts? = some (raw, args)) (hc : r.classes.lookup raw = .ok c)
    (hd : c.redirect? = none) : modelWithin (n + 1) ty r = cachedModel ty c raw args r := by
  rw [modelWithin_apply]
  simp only [hp, hc, hd]

theorem modelFor_direct {ty : TypeExpr} {raw : ClassId} {args : List TypeExpr} {c : Class} {r : Registry}
    (hp : ty.parts? = some (raw, args)) (hc : r.classes.lookup raw = .ok c) (hd : c.redirect? = none) :
    modelFor ty r = cachedModel ty c raw args r :=
  modelWithin_direct 0xFFFFFF hp hc hd

/-! ## Lookup -/

/-- The model of a type, before it is initialized. -/
def modelOf (ty : TypeExpr) : RegistryM Model := do
  modelFor (← onTable (ClassTable.resolve ty ty))

theorem init_apply (m : Model) (r : Registry) :
    m.init r =
      match m.getContents r with
      | .ok _ r' => .ok () r'
      | .error e r' => .error e r' := by
  show EStateM.map (Function.const _ ()) m.getContents r = _
  unfold EStateM.map
  cases m.getContents r with
  | ok c r' => rfl
  | error e r' => rfl

/-- A lookup finds the model and initializes it. -/
theorem ofType_apply (ty : TypeExpr) (r : Registry) :
    ofType ty r =
      match modelOf ty r with
      | .ok m r₁ =>
        match m.getContents r₁ with
        | .ok _ r₂ => .ok m r₂
        | .error e r₂ => .error e r₂
      | .error e r₁ => .error e r₁ := by
  unfold ofType modelOf
  rw [bind_apply, bind_apply]
  cases onTable (ClassTable.resolve ty ty) r with
  | error e r₁ => rfl
  | ok concrete r₁ =>
    simp only
    rw [bind_apply]
    cases modelFor concrete r₁ with
    | error e r₂ => rfl
    | ok m r₂ =>
      simp only
      rw [bind_apply, init_apply]
      cases m.getContents r₂ with
      | ok c r₃ => rfl
      | error e r₃ => rfl

theorem ofType_of_ok {ty : TypeExpr} {r r₁ : Registry} {m : Model}
    (h : modelOf ty r = .ok m r₁) :
    ofType ty r =
      match m.getContents r₁ with
      | .ok _ r₂ => .ok m r₂
      | .error e r₂ => .error e r₂ := by
  rw [ofType_apply, h]

theorem ofType_of_error {ty : TypeExpr} {r r₁ : Registry} {e : Error}
    (h : modelOf ty r = .error e r₁) : ofType ty r = .error e r₁ := by
  rw [ofType_apply, h]

theorem ofType_stages {ty : TypeExpr} {r r' : Registry} {m : Model} (h : ofType ty r = .ok m r') :
    ∃ r₁ c, modelOf ty r = .ok m r₁ ∧ m.getContents r₁ = .ok c r' := by
  cases hm : modelOf ty r with
  | error e r₁ => rw [ofType_of_error hm] at h; cases h
  | ok n r₁ =>
    rw [ofType_of_ok hm] at h
    cases hget : n.getContents r₁ with
    | error e r₂ => rw [hget] at h; cases h
    | ok c r₂ =>
      rw [hget] at h
      cases h
      exact ⟨r₁, c, rfl, hget⟩

theorem ofType_of_getContents {ty : TypeExpr} {r r₁ r' : Registry} {m : Model} {c : Contents}
    (hm : modelOf ty r = .ok m r₁) (hc : m.getContents r₁ = .ok c r') : ofType ty r = .ok m r' := by
  rw [ofType_of_ok hm, hc]

theorem after_ofType {ty : TypeExpr} {r r₁ : Registry} {m : Model}
    (hm : modelOf ty r = .ok m r₁) : after (ofType ty) r = after m.getContents r₁ := by
  unfold after
  rw [ofType_of_ok hm]
  cases m.getContents r₁ with
  | ok c r₂ => rfl
  | error e r₂ => rfl

end Registry
end Introspect
