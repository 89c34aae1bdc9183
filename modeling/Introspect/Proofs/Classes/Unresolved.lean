import Introspect.Proofs.Classes.Mentions
import Introspect.Proofs.Types.Substitution

/-!
Variables that resolution cannot resolve.

A resolution fails for want of a variable only when it comes upon one that its class, which is declared, does
not declare. It comes upon those of the type, of the site and of the supertypes of declared classes.

* `resolveAt_unresolved`: which variable a resolution fails for.
* `WellScoped`: every supertype of a declared class has variables that are declared.
* `WellScoped.resolve`: then no type with declared variables fails so at a site with declared variables.
* `WellScoped.define`: a declaration keeps that if its own supertypes do.
-/

namespace Introspect.ClassTable

open TypeExpr

/-! ## Where variables come from -/

theorem vars_substitute {c : Class} {args : List TypeExpr} {ty : TypeExpr} {v : ClassId × String}
    (h : v ∈ (substitute c args ty).vars) : v ∈ ty.vars ∨ ∃ arg ∈ args, v ∈ arg.vars := by
  by_cases hargs : args = []
  · rw [hargs] at h
    exact .inl h
  rw [substitute_eq_subst hargs, vars_subst] at h
  obtain ⟨w, hw, hv⟩ := List.mem_flatMap.1 h
  unfold Class.binding at hv
  split at hv
  · cases hb : (c.typeParamIndex? w.2).bind fun i => args[i]? with
    | none =>
      rw [hb] at hv
      cases List.mem_singleton.1 hv
      exact .inl hw
    | some arg =>
      rw [hb] at hv
      obtain ⟨i, -, hi⟩ := Option.bind_eq_some_iff.1 hb
      exact .inr ⟨arg, List.mem_of_getElem? hi, hv⟩
  · cases List.mem_singleton.1 hv
    exact .inl hw

theorem vars_args {ty : TypeExpr} {raw : ClassId} {args : List TypeExpr}
    (hp : ty.parts? = some (raw, args)) {arg : TypeExpr} (harg : arg ∈ args) {v : ClassId × String}
    (hv : v ∈ arg.vars) : v ∈ ty.vars := by
  cases ty with
  | named id => cases hp; cases harg
  | apply r as =>
    cases hp
    rw [vars, varsOfAll_eq_flatMap]
    exact List.mem_flatMap.2 ⟨arg, harg, hv⟩
  | wildcard lower upper => cases hp
  | var owner name => cases hp
  | array component => cases hp

theorem vars_bound {lower upper : List TypeExpr} {bound : TypeExpr} (hb : bound ∈ lower ++ upper)
    {v : ClassId × String} (hv : v ∈ bound.vars) : v ∈ (wildcard lower upper).vars := by
  rw [vars, varsOfAll_eq_flatMap, varsOfAll_eq_flatMap, ← List.flatMap_append]
  exact List.mem_flatMap.2 ⟨bound, hb, hv⟩

/-- Every variable of a supertype of a declared class has the property. -/
def Scopes (P : ClassId × String → Prop) (t : ClassTable) : Prop :=
  ∀ id c, t.find? id = some c → ∀ sup ∈ c.supertypes, ∀ v ∈ sup.vars, P v

variable {P : ClassId × String → Prop} {t t' : ClassTable}

/-- Array classes have no supertype with variables. -/
theorem Scopes.extend (h : Scopes P t) (ht : t.Extends t') : Scopes P t' := by
  intro id c hc sup hsup v hv
  rcases ht.arrays id c hc with hc | ⟨component, rfl⟩
  · exact h id c hc sup hsup v hv
  · cases List.mem_singleton.1 hsup
    cases hv

/-- A search finds no other variables than those of the type it starts with and of supertypes. -/
theorem Scopes.collected (h : Scopes P t) {site : TypeExpr} (hsite : ∀ v ∈ site.vars, P v)
    {target : ClassId} {params : List TypeExpr} (hp : t.collectParameters site target = .ok params) :
    ∀ arg ∈ params, ∀ v ∈ arg.vars, P v := by
  refine searchParameters_forall (P := fun ty => ∀ v ∈ ty.vars, P v)
    (fun hty hparts arg harg v hv => hty v (vars_args hparts harg hv)) ?_ hsite hp
  intro raw c args hc hargs sup hsup v hv
  rcases vars_substitute hv with hv | ⟨arg, harg, hv⟩
  · exact h raw c (lookup_eq_ok_iff.1 hc) sup hsup v hv
  · exact hargs arg harg v hv

/-! ## The variable that a resolution fails for -/

/-- The variable's class is not declared, or does not declare it. -/
def Lacks (t : ClassTable) (v : ClassId × String) : Prop :=
  ∀ c, t.find? v.1 = some c → c.typeParamIndex? v.2 = none

theorem LookupFailure.ne_unresolved {e : Error} (h : LookupFailure e) {owner : ClassId}
    {name : String} {site : TypeExpr} : e ≠ .unresolvedVariable owner name site := by
  rintro rfl
  cases h

theorem Lacks.back {v : ClassId × String} (h : t'.Lacks v) (ht : t.Within t') : t.Lacks v :=
  fun c hc => h c (ht v.1 c hc)

theorem ne_unresolved_of_raises {α : Type} {x : TableM α} (hx : Raises LookupFailure x)
    {owner : ClassId} {name : String} {site : TypeExpr} :
    x t ≠ .error (.unresolvedVariable owner name site) t' :=
  fun h => (hx t _ t' h).ne_unresolved rfl

/-- A resolution fails only for a variable of the type, the site or a supertype, and only if the table lacks
that variable. -/
theorem resolveAt_unresolved (hscopes : Scopes P t) {n : Nat} {ty site : TypeExpr}
    (hty : ∀ v ∈ ty.vars, P v) (hsite : ∀ v ∈ site.vars, P v) {owner : ClassId} {name : String}
    {scope : TypeExpr} (h : resolveAt n ty site t = .error (.unresolvedVariable owner name scope) t') :
    P (owner, name) ∧ t.Lacks (owner, name) := by
  induction n generalizing ty t t' with
  | zero => cases h
  | succ n ih =>
    cases ty with
    | named id => cases h
    | apply raw args =>
      simp only [resolveAt] at h
      rcases bind_eq_error_iff.1 h with hargs | ⟨as, s, -, hpure⟩
      · -- the table may have grown before the argument that fails
        obtain ⟨arg, harg, s, s', hs, hfails⟩ := mapM_error_between Extends.refl Extends.trans
          (fun arg => resolveAt_extends n arg site) hargs
        obtain ⟨hv, hlacks⟩ := ih (hscopes.extend hs)
          (fun v hv => hty v (vars_args rfl harg hv)) hfails
        exact ⟨hv, hlacks.back hs.within⟩
      · cases hpure
    | wildcard lower upper =>
      simp only [resolveAt] at h
      cases hb : lower.head?.or upper.head? with
      | none => rw [hb] at h; cases h
      | some bound =>
        rw [hb] at h
        exact ih hscopes (fun v hv => hty v (vars_bound (mem_bounds hb) hv)) h
    | var o x =>
      simp only [resolveAt] at h
      rw [bind_of_ok (get_apply t)] at h
      rcases bind_eq_error_iff.1 h with hlookup | ⟨c, s, hlookup, hindex⟩
      · exact absurd rfl (lookup_failure (ofExcept_eq_error_iff.1 hlookup).1).ne_unresolved
      obtain ⟨hc, rfl⟩ := ofExcept_eq_ok_iff.1 hlookup
      cases hi : c.typeParamIndex? x with
      | none =>
        -- the variable itself is lacking
        simp only [hi] at hindex
        cases hindex
        refine ⟨hty (owner, name) (List.mem_singleton_self _), fun d hd => ?_⟩
        rw [lookup_eq_ok_iff.1 hc] at hd
        cases hd
        exact hi
      | some index =>
        simp only [hi] at hindex
        rcases bind_eq_error_iff.1 hindex with hsearch | ⟨params, s, hsearch, hparam⟩
        · exact absurd rfl
            (searchParameters_failure (ofExcept_eq_error_iff.1 hsearch).1).ne_unresolved
        obtain ⟨hparams, rfl⟩ := ofExcept_eq_ok_iff.1 hsearch
        cases harg : params[index]? with
        | none =>
          simp only [harg] at hparam
          exact absurd hparam (ne_unresolved_of_raises (eraseBound_raises n c index))
        | some arg =>
          simp only [harg] at hparam
          split at hparam
          · exact absurd hparam (ne_unresolved_of_raises (eraseBound_raises n c index))
          · exact ih hscopes (hscopes.collected hsite hparams arg (List.mem_of_getElem? harg)) hparam
    | array component =>
      simp only [resolveAt] at h
      rcases bind_eq_error_iff.1 h with hcomponent | ⟨c, s, -, harray⟩
      · have hvars : ∀ v ∈ component.vars, P v := hty
        exact ih hscopes hvars hcomponent
      · rcases bind_eq_error_iff.1 harray with harray | ⟨id, s', -, hpure⟩
        · exact absurd harray (ne_unresolved_of_raises (arrayOf_raises c))
        · cases hpure

theorem resolve_unresolved (hscopes : Scopes P t) {ty site : TypeExpr} (hty : ∀ v ∈ ty.vars, P v)
    (hsite : ∀ v ∈ site.vars, P v) {owner : ClassId} {name : String} {scope : TypeExpr}
    (h : resolve ty site t = .error (.unresolvedVariable owner name scope) t') :
    P (owner, name) ∧ t.Lacks (owner, name) :=
  resolveAt_unresolved hscopes hty hsite h

/-! ## Tables without such variables -/

/-- The variable's class is declared, and declares it. -/
def Declares (t : ClassTable) (v : ClassId × String) : Prop :=
  ∃ c, t.find? v.1 = some c ∧ (c.typeParamIndex? v.2).isSome = true

theorem Declares.not_lacks {v : ClassId × String} (h : t.Declares v) : ¬t.Lacks v := by
  intro hlacks
  obtain ⟨c, hc, hv⟩ := h
  rw [hlacks c hc] at hv
  cases hv

theorem Declares.mono {v : ClassId × String} (h : t.Declares v) (ht : t.Within t') : t'.Declares v :=
  let ⟨c, hc, hv⟩ := h
  ⟨c, ht v.1 c hc, hv⟩

/-- Every variable of the expression is declared. -/
def InScope (t : ClassTable) (ty : TypeExpr) : Prop := ∀ v ∈ ty.vars, t.Declares v

/-- Every supertype of a declared class has declared variables only. -/
def WellScoped (t : ClassTable) : Prop := Scopes t.Declares t

/-- In such a table no variable is found unresolved. -/
theorem WellScoped.resolve (ht : t.WellScoped) {ty site : TypeExpr} (hty : t.InScope ty)
    (hsite : t.InScope site) {owner : ClassId} {name : String} {scope : TypeExpr} :
    ClassTable.resolve ty site t ≠ .error (.unresolvedVariable owner name scope) t' := by
  intro h
  obtain ⟨hdeclared, hlacks⟩ := resolve_unresolved ht hty hsite h
  exact hdeclared.not_lacks hlacks

theorem InScope.mono {ty : TypeExpr} (h : t.InScope ty) (ht : t.Within t') : t'.InScope ty :=
  fun v hv => (h v hv).mono ht

theorem mem_supertypes_normalize {c : Class} {ty : TypeExpr} (h : ty ∈ c.normalize.supertypes) :
    ty ∈ c.supertypes ∨ ty = .object := by
  unfold Class.normalize at h
  split at h
  · rcases List.mem_cons.1 h with h | h
    · exact .inr h
    · exact .inl (List.mem_append_right _ h)
  · exact .inl h

theorem find?_define_self {c : Class} (h : t.define c = .ok t') :
    t'.find? c.id = some c.normalize := by
  unfold define at h
  split at h
  · cases h
  · cases h
    simp [find?, normalize_id]

theorem find?_of_define {c d : Class} {id : ClassId} (h : t.define c = .ok t')
    (hd : t'.find? id = some d) : (id = c.id ∧ d = c.normalize) ∨ t.find? id = some d := by
  by_cases hid : c.id = id
  · subst hid
    rw [find?_define_self h] at hd
    cases hd
    exact .inl ⟨rfl, rfl⟩
  · unfold define at h
    split at h
    · cases h
    · cases h
      rw [find?_cons_of_ne (by rwa [normalize_id])] at hd
      exact .inr hd

/-- A declaration keeps a table well scoped when its own supertypes have declared variables only. -/
theorem WellScoped.define (ht : t.WellScoped) {c : Class} (h : t.define c = .ok t')
    (hc : ∀ ty ∈ c.supertypes, t'.InScope ty) : t'.WellScoped := by
  intro id d hd sup hsup
  rcases find?_of_define h hd with ⟨-, rfl⟩ | hd
  · rcases mem_supertypes_normalize hsup with hsup | rfl
    · exact hc sup hsup
    · exact fun _ hv => nomatch hv
  · exact InScope.mono (ht id d hd sup hsup) (define_grows h)

theorem builtin_wellScoped : builtin.WellScoped := by
  have hall : ∀ c ∈ builtin.classes, ∀ sup ∈ c.supertypes, ∀ v ∈ sup.vars,
      (builtin.find? v.1).any (fun d => (d.typeParamIndex? v.2).isSome) = true := by
    decide +kernel
  intro id c hc sup hsup v hv
  have hdeclared := hall c (List.mem_of_find?_eq_some hc) sup hsup v hv
  exact (Option.any_eq_true _ _).1 hdeclared

end Introspect.ClassTable
