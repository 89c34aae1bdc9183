import Introspect.Proofs.Classes.Ancestry
import Introspect.Proofs.Classes.Mentions
import Introspect.Proofs.Models.Search
import Introspect.Proofs.Values.Instances

/-!
Computations without an end.

Nothing keeps a class from being its own superclass, so a walk along superclasses may never end, nor a search
of a model that goes on from a synthetic class to its superclass.

* `instantiate_endless_iff`: instantiation has no end just when objects are to be made of a class whose chain of
  superclasses leads into a circle.
* `modelWithin_endless_iff`: the search of a model has no end just when it is redirected over and over.
* `redirects_le_size`: without a circle of synthetic classes it is redirected once for each class at most.
-/

namespace Introspect

open Registry ClassTable Relation

/-! ## Outcomes -/

section Outcomes

variable {σ α β : Type} {s : σ}

def Error.isEndless : Error → Bool
  | .endless _ => true
  | _ => false

/-- Run on this state, the computation has no end. -/
def Endless (x : EStateM Error σ α) (s : σ) : Prop := ∃ e s', x s = .error e s' ∧ e.isEndless = true

instance (x : EStateM Error σ α) (s : σ) : Decidable (Endless x s) :=
  match h : x s with
  | .ok _ _ => isFalse fun ⟨_, _, h', _⟩ => by rw [h] at h'; cases h'
  | .error e s' =>
    if he : e.isEndless = true then isTrue ⟨e, s', h, he⟩
    else isFalse fun ⟨_, _, h', he'⟩ => by rw [h] at h'; cases h'; exact he he'

theorem not_endless_of_ok {x : EStateM Error σ α} {a : α} {s' : σ} (h : x s = .ok a s') :
    ¬ Endless x s := by
  rintro ⟨e, s'', he, -⟩
  rw [h] at he
  cases he

theorem endless_of_error {x : EStateM Error σ α} {e : Error} {s' : σ} (h : x s = .error e s') :
    Endless x s ↔ e.isEndless = true := by
  constructor
  · rintro ⟨e', s'', he, hend⟩
    rw [h] at he
    cases he
    exact hend
  · intro he
    exact ⟨e, s', h, he⟩

theorem endless_bind_iff {x : EStateM Error σ α} {f : α → EStateM Error σ β} :
    Endless (x >>= f) s ↔ Endless x s ∨ ∃ a s', x s = .ok a s' ∧ Endless (f a) s' := by
  unfold Endless
  constructor
  · rintro ⟨e, s', h, he⟩
    rcases bind_eq_error_iff.1 h with h | ⟨a, s₁, ha, h⟩
    · exact .inl ⟨e, s', h, he⟩
    · exact .inr ⟨a, s₁, ha, e, s', h, he⟩
  · rintro (⟨e, s', h, he⟩ | ⟨a, s₁, ha, e, s', h, he⟩)
    · exact ⟨e, s', bind_of_error h, he⟩
    · exact ⟨e, s', (bind_of_ok ha).trans h, he⟩

theorem endless_bind_of_ok {x : EStateM Error σ α} {f : α → EStateM Error σ β} {a : α} {s' : σ}
    (h : x s = .ok a s') : Endless (x >>= f) s ↔ Endless (f a) s' := by
  unfold Endless
  rw [bind_of_ok h]

theorem endless_ofExcept_iff {x : Except Error α} :
    Endless (ofExcept x) s ↔ ∃ e, x = .error e ∧ e.isEndless = true := by
  cases x with
  | ok a => exact iff_of_false (not_endless_of_ok (ofExcept_ok a s)) fun ⟨e, h, _⟩ => by cases h
  | error e =>
    rw [endless_of_error (ofExcept_error e s)]
    exact ⟨fun he => ⟨e, rfl, he⟩, fun ⟨e', h, he⟩ => by cases h; exact he⟩

theorem not_endless_of_raises {x : EStateM Error σ α}
    (h : Raises (fun e => e.isEndless = false) x) (s : σ) : ¬ Endless x s := by
  rintro ⟨e, s', he, hend⟩
  rw [h s e s' he] at hend
  cases hend

end Outcomes

namespace ClassTable

theorem ResolutionFailure.ends {e : Error} (h : ResolutionFailure e) : e.isEndless = false := by
  cases h <;> rfl

theorem unless_of_ends {C : Prop} {e : Error} (h : e.isEndless = false) (hend : e.isEndless = true) :
    C := by
  rw [h] at hend
  cases hend

theorem lookup_ends {t : ClassTable} {id : ClassId} {e : Error} (h : t.lookup id = .error e) :
    e.isEndless = false :=
  (lookup_failure h).resolution.ends

/-- A closure of supertypes always ends. -/
theorem visit_ends {t : ClassTable} {stack : List ClassId} {visited : List Class} {e : Error}
    (h : t.visit stack visited = .error e) : e.isEndless = false := by
  fun_induction t.visit stack visited with
  | case1 stack visited hs => cases h
  | case2 stack visited id rest hs e' he => cases h; exact lookup_ends he
  | case3 stack visited id rest hs c hc ih => exact ih h

theorem superclassChain_isEndless_iff {t : ClassTable} {c : Class} (hc : t.find? c.id = some c) :
    (∃ e, t.superclassChain c = .error e ∧ e.isEndless = true) ↔ t.Loops c.id := by
  rw [← superclassChain_endless_iff hc]
  constructor
  · rintro ⟨e, he, hend⟩
    cases e <;> cases hend
    exact ⟨_, he⟩
  · rintro ⟨id, h⟩
    exact ⟨_, h, rfl⟩

/-! ## Instances -/

/-- Instances of the class are objects with slots, for the fields along its chain of superclasses. -/
structure Slotted (t : ClassTable) (c : Class) : Prop where
  kind : c.kind = .plain ∨ c.kind = .record
  concrete : c.modifiers.isAbstract = false
  string : c.id ≠ .string
  holder : c.id ≠ .holder
  list : t.isAssignable .list c.id = false
  map : t.isAssignable .map c.id = false

theorem defaultValue_ends (t : ClassTable) (ty : TypeExpr) (h : Heap) :
    ¬ Endless (t.defaultValue ty) h := by
  obtain ⟨v, h', hv, -⟩ := defaultValue_eq_ok (t := t) ty h
  exact not_endless_of_ok hv

theorem instantiatePlain_endless_iff {t : ClassTable} {c : Class} (hc : t.find? c.id = some c)
    (h : Heap) :
    Endless (t.instantiatePlain c) h ↔
      (c.id ≠ .string ∧ c.id ≠ .holder ∧ t.isAssignable .list c.id = false ∧
        t.isAssignable .map c.id = false) ∧ t.Loops c.id := by
  unfold instantiatePlain
  by_cases hstring : c.id = .string
  · rw [if_pos hstring]
    exact iff_of_false (not_endless_of_ok rfl) fun hno => hno.1.1 hstring
  rw [if_neg hstring]
  by_cases hholder : c.id = .holder
  · rw [if_pos hholder]
    exact iff_of_false (not_endless_of_ok rfl) fun hno => hno.1.2.1 hholder
  rw [if_neg hholder]
  cases hlist : t.isAssignable .list c.id with
  | true =>
    rw [if_pos rfl]
    exact iff_of_false (not_endless_of_ok rfl) fun hno => by cases hno.1.2.2.1
  | false =>
    rw [if_neg Bool.false_ne_true]
    cases hmap : t.isAssignable .map c.id with
    | true =>
      rw [if_pos rfl]
      exact iff_of_false (not_endless_of_ok rfl) fun hno => by cases hno.1.2.2.2
    | false =>
      rw [if_neg Bool.false_ne_true, endless_bind_iff, endless_ofExcept_iff,
        superclassChain_isEndless_iff hc]
      constructor
      · rintro (hloops | ⟨chain, h₁, -, hrest⟩)
        · exact ⟨⟨hstring, hholder, rfl, rfl⟩, hloops⟩
        · obtain ⟨slots, h₂, hslots, -⟩ :=
            addDefaults_eq_ok (t := t) Dict.empty (chainFields chain) h₁
          exact absurd hrest (not_endless_of_ok (bind_of_ok hslots))
      · exact fun hloops => .inl hloops.2

/-- Instantiation ends unless it walks along a chain that leads into a circle. -/
theorem instantiate_endless_iff (t : ClassTable) (id : ClassId) (h : Heap) :
    Endless (t.instantiate id) h ↔
      ∃ c, t.find? id = some c ∧ t.Slotted c ∧ t.Loops id := by
  unfold instantiate
  cases hc : t.lookup id with
  | error e =>
    rw [endless_of_error (bind_of_error (ofExcept_error e h)), lookup_ends hc,
      (lookup_eq_error_iff.1 hc).1]
    simp
  | ok c =>
    have hfound := lookup_eq_ok_iff.1 hc
    obtain rfl : c.id = id := find?_id hfound
    have honly : (∃ d, t.find? c.id = some d ∧ t.Slotted d ∧ t.Loops c.id) ↔
        t.Slotted c ∧ t.Loops c.id := by simp [hfound]
    have hslots (hk : c.kind = .plain ∨ c.kind = .record) :
        Endless (if c.modifiers.isAbstract then throw (.invalidDeclaration (.abstractInstance c.id))
          else t.instantiatePlain c : HeapM Value) h ↔ t.Slotted c ∧ t.Loops c.id := by
      cases hconcrete : c.modifiers.isAbstract with
      | true =>
        refine iff_of_false (fun hend => ?_) fun hno => ?_
        · cases (endless_of_error rfl).1 hend
        · rw [hno.1.concrete] at hconcrete
          cases hconcrete
      | false =>
        rw [if_neg Bool.false_ne_true, instantiatePlain_endless_iff hfound]
        constructor
        · rintro ⟨⟨hstring, hholder, hlist, hmap⟩, hloops⟩
          exact ⟨⟨hk, hconcrete, hstring, hholder, hlist, hmap⟩, hloops⟩
        · rintro ⟨hs, hloops⟩
          exact ⟨⟨hs.string, hs.holder, hs.list, hs.map⟩, hloops⟩
    have hother {x : HeapM Value} (hx : ¬ Endless x h) (hk : ¬(c.kind = .plain ∨ c.kind = .record)) :
        Endless x h ↔ t.Slotted c ∧ t.Loops c.id :=
      iff_of_false hx fun hno => hk hno.1.kind
    rw [honly, endless_bind_of_ok (ofExcept_ok c h)]
    cases hk : c.kind with
    | primitive kind nullable => exact hother (not_endless_of_ok rfl) (by simp [hk])
    | enumeration constants => exact hother (defaultValue_ends t _ h) (by simp [hk])
    | array component => exact hother (not_endless_of_ok rfl) (by simp [hk])
    | interface =>
      refine hother (fun hend => ?_) (by simp [hk])
      cases (endless_of_error rfl).1 hend
    | plain => exact hslots (.inl hk)
    | record => exact hslots (.inr hk)

/-! ## Redirections -/

/-- The search of the type's model passes `n` synthetic classes in a row. -/
def Redirects : Nat → TypeExpr → ClassTable → Prop
  | 0, _, _ => True
  | n + 1, ty, t =>
    ∃ raw args c superclass resolved t', ty.parts? = some (raw, args) ∧ t.find? raw = some c ∧
      c.redirect? = some superclass ∧ ClassTable.resolve superclass ty t = .ok resolved t' ∧
      Redirects n resolved t'

/-- The superclass that a synthetic class is declared with is of the class `b`. -/
def Stands (t : ClassTable) (a b : ClassId) : Prop :=
  ∃ c superclass, t.find? a = some c ∧ c.redirect? = some superclass ∧ superclass.raw? = some b

/-- The superclasses of synthetic classes are classes and parameterizations, no variables or arrays. -/
def SyntheticsNamed (t : ClassTable) : Prop :=
  ∀ a c superclass, t.find? a = some c → c.redirect? = some superclass → superclass.raw?.isSome = true

/-- Somewhere a search passes more synthetic classes than it may. -/
def Diverges (t : ClassTable) : Prop :=
  ∃ ty u, t.Extends u ∧ Redirects redirectionLimit ty u

theorem Diverges.of_extends {t u : ClassTable} (htu : t.Extends u) (h : u.Diverges) : t.Diverges := by
  obtain ⟨ty, v, hv, hr⟩ := h
  exact ⟨ty, v, htu.trans _ _ _ hv, hr⟩

theorem resolve_extends (ty site : TypeExpr) : Moves Extends (ClassTable.resolve ty site) :=
  resolveAt_extends _ ty site

/-- A resolved class type is of the same class. -/
theorem resolve_raw? {ty site resolved : TypeExpr} {t t' : ClassTable} {raw : ClassId}
    (hraw : ty.raw? = some raw) (h : ClassTable.resolve ty site t = .ok resolved t') :
    resolved.raw? = some raw := by
  cases ty with
  | named id => cases h; exact hraw
  | apply r args =>
    simp only [ClassTable.resolve, resolveAt] at h
    obtain ⟨rs, s, -, hr⟩ := bind_eq_ok_iff.1 h
    cases hr
    exact hraw
  | wildcard lower upper => cases hraw
  | var owner name => cases hraw
  | array component => cases hraw

theorem redirect?_arrayClass (component : TypeExpr) : (arrayClass component).redirect? = none := rfl

/-- Array classes are not synthetic, so a table that has some more redirects no further. -/
theorem Redirects.walks {t u : ClassTable} (hnamed : t.SyntheticsNamed) (htu : t.Extends u) {n : Nat}
    {ty : TypeExpr} (h : Redirects n ty u) {raw : ClassId} (hraw : ty.raw? = some raw) :
    Walks t.Stands n raw := by
  induction n generalizing ty u raw with
  | zero => trivial
  | succ n ih =>
    obtain ⟨r, args, c, superclass, resolved, u', hparts, hc, hs, hresolve, hrest⟩ := h
    cases (TypeExpr.raw?_of_parts? hparts).symm.trans hraw
    have hct : t.find? raw = some c := by
      rcases htu.arrays raw c hc with hc | ⟨component, rfl⟩
      · exact hc
      · rw [redirect?_arrayClass] at hs
        cases hs
    obtain ⟨b, hb⟩ := Option.isSome_iff_exists.1 (hnamed raw c superclass hct hs)
    refine ⟨b, ⟨c, superclass, hct, hs, hb⟩, ?_⟩
    exact ih (htu.trans _ _ _ ((resolve_extends superclass ty).ok hresolve)) hrest
      (resolve_raw? hb hresolve)

/-- Without a circle of synthetic classes a search passes every class at most once. -/
theorem redirects_le_size {t u : ClassTable} (hnamed : t.SyntheticsNamed)
    (hacyclic : ∀ a, ¬ TransGen t.Stands a a) (htu : t.Extends u) {n : Nat} {ty : TypeExpr}
    (h : Redirects n ty u) : n ≤ t.size := by
  cases n with
  | zero => exact Nat.zero_le _
  | succ n =>
    obtain ⟨raw, args, -, -, -, -, hparts, -⟩ := id h
    have hwalks := h.walks hnamed htu (TypeExpr.raw?_of_parts? hparts)
    have hle := hwalks.le_length (fun ⟨b, _, hb⟩ => hacyclic b hb) (l := t.classes.map (·.id))
      fun a b _ ⟨c, _, hc, _⟩ => List.mem_map.2 ⟨c, mem_of_find? hc, find?_id hc⟩
    rwa [List.length_map] at hle

end ClassTable

namespace Registry

/-- The search has no end just when it is redirected as often as it may be. -/
theorem modelWithin_endless_iff (n : Nat) (ty : TypeExpr) (r : Registry) :
    Endless (modelWithin n ty) r ↔ Redirects n ty r.classes := by
  induction n generalizing ty r with
  | zero => exact iff_of_true ⟨_, r, rfl, rfl⟩ trivial
  | succ n ih =>
    unfold Redirects
    cases modelWithin_step n ty r with
    | classless hp hsearch =>
      rw [endless_of_error hsearch]
      refine iff_of_false Bool.false_ne_true fun ⟨raw, args, _, _, _, _, hparts, _⟩ => ?_
      rw [hp] at hparts
      cases hparts
    | undeclared raw args e hp hc hsearch =>
      rw [endless_of_error hsearch, lookup_ends hc]
      refine iff_of_false Bool.false_ne_true fun ⟨_, _, c, _, _, _, hparts, hfound, _⟩ => ?_
      cases hp.symm.trans hparts
      rw [(lookup_eq_error_iff.1 hc).1] at hfound
      cases hfound
    | ends raw args c hp hc hd hsearch =>
      obtain ⟨m, r', hm⟩ := cachedModel_answers ty c raw args r
      refine iff_of_false (not_endless_of_ok (hsearch.trans hm)) ?_
      rintro ⟨_, _, _, _, _, _, hparts, hfound, hs, -⟩
      cases hp.symm.trans hparts
      cases (lookup_eq_ok_iff.1 hc).symm.trans hfound
      rw [hd] at hs
      cases hs
    | goesOn raw args c superclass hp hc hs hsearch =>
      have hends : ¬ Endless (onTable (ClassTable.resolve superclass ty)) r :=
        not_endless_of_raises (onTable_raises fun t e t' h =>
          (resolveAt_raises _ superclass ty t e t' h).ends) r
      have hiff : Endless (modelWithin (n + 1) ty) r ↔ Endless (redirected n superclass ty) r := by
        unfold Endless
        rw [hsearch]
      rw [hiff, redirected, endless_bind_iff]
      constructor
      · rintro (hend | ⟨resolved, r', hresolved, hrest⟩)
        · exact absurd hend hends
        · obtain ⟨t', hresolve, rfl⟩ := onTable_eq_ok hresolved
          exact ⟨raw, args, c, superclass, resolved, t', hp, lookup_eq_ok_iff.1 hc, hs, hresolve,
            (ih _ _).1 hrest⟩
      · rintro ⟨_, _, _, _, resolved, t', hparts, hfound, hs', hresolve, hrest⟩
        cases hp.symm.trans hparts
        cases (lookup_eq_ok_iff.1 hc).symm.trans hfound
        cases hs.symm.trans hs'
        refine .inr ⟨resolved, { r with classes := t' }, ?_, (ih _ _).2 hrest⟩
        rw [onTable_apply, hresolve]

theorem onTable_extends {α : Type} {x : TableM α} (hx : Moves Extends x) (r : Registry) :
    r.classes.Extends (after (onTable x) r).classes := by
  rw [after_onTable]
  exact hx r.classes

theorem modelWithin_extends (n : Nat) (ty : TypeExpr) :
    Moves (fun r r' : Registry => r.classes.Extends r'.classes) (modelWithin n ty) := by
  have hrefl : ∀ r : Registry, r.classes.Extends r.classes := fun r => Extends.refl _
  have htrans : ∀ r s u : Registry, r.classes.Extends s.classes → s.classes.Extends u.classes →
    r.classes.Extends u.classes := fun _ _ _ => Extends.trans _ _ _
  induction n generalizing ty with
  | zero => exact .throw hrefl _
  | succ n ih =>
    unfold modelWithin
    split
    · exact .throw hrefl _
    · refine .bind htrans (.get hrefl) fun r => .bind htrans (.ofExcept hrefl _) fun c => ?_
      split
      · exact .bind htrans (onTable_extends (resolve_extends _ _)) ih
      · intro s
        obtain ⟨m, s', hm⟩ := cachedModel_answers ty c _ _ s
        rw [after_of_ok hm, cachedModel_classes hm]
        exact Extends.refl _

end Registry

end Introspect
