import Introspect.Classes.Resolution
import Introspect.Proofs.Computation
import Introspect.Proofs.Types.Resolved

/-!
What resolution answers: a type of classes and parameterizations only, that is not higher than the
levels it was found with. Such a type resolves to itself in every scope.

* `resolveAt_var_eq_ok` and the like: where an answer comes from, form by form.
* `resolveAt_resolved`: the answer has no more levels than the search was allowed.
* `resolveAt_of_resolved`: a resolved type is its own answer, and the class table stays as it is.
* `resolveAt_raises`: how a resolution may fail.
-/

namespace Introspect.ClassTable

open TypeExpr

/-! ## Where an answer comes from -/

section Answers

variable {n : Nat} {owner : ClassId} {name : String} {site r : TypeExpr} {t t' : ClassTable}

/-- The answer for an array is the array class of the answer for its component. -/
theorem arrayType_eq_ok {x : TableM TypeExpr}
    (h : (do let c ← x; return TypeExpr.named (← arrayOf c)) t = .ok r t') :
    ∃ c s id, x t = .ok c s ∧ arrayOf c s = .ok id t' ∧ r = .named id := by
  obtain ⟨c, s, hc, h⟩ := bind_eq_ok_iff.1 h
  obtain ⟨id, s', hid, h⟩ := bind_eq_ok_iff.1 h
  cases h
  exact ⟨c, s, id, hc, hid, rfl⟩

theorem eraseAt_var_eq_ok (h : eraseAt (n + 1) (.var owner name) t = .ok r t') :
    ∃ c, t.lookup owner = .ok c ∧ ((r = .object ∧ t' = t) ∨
      ∃ (i : Nat) (bound : TypeExpr), c.typeParams[i]?.bind (·.bounds.head?) = some bound ∧
        eraseAt n bound t = .ok r t') := by
  simp only [eraseAt] at h
  obtain ⟨t₀, s, hget, h₁⟩ := bind_eq_ok_iff.1 h
  cases hget
  obtain ⟨c, s, hc, h₂⟩ := bind_eq_ok_iff.1 h₁
  obtain ⟨hc, rfl⟩ := ofExcept_eq_ok_iff.1 hc
  refine ⟨c, hc, ?_⟩
  cases hb : (c.typeParamIndex? name).bind fun i => c.typeParams[i]?.bind (·.bounds.head?) with
  | some bound =>
    simp only [hb] at h₂
    obtain ⟨i, -, hi⟩ := Option.bind_eq_some_iff.1 hb
    exact .inr ⟨i, bound, hi, h₂⟩
  | none =>
    simp only [hb] at h₂
    cases h₂
    exact .inl ⟨rfl, rfl⟩

theorem eraseBound_eq_ok {c : Class} {index : Nat} (h : eraseBound n c index t = .ok r t') :
    (r = .object ∧ t' = t) ∨ ∃ bound, c.typeParams[index]?.bind (·.bounds.head?) = some bound ∧
      eraseAt n bound t = .ok r t' := by
  unfold eraseBound at h
  cases hb : c.typeParams[index]?.bind (·.bounds.head?) with
  | some bound =>
    simp only [hb] at h
    exact .inr ⟨bound, rfl, h⟩
  | none =>
    simp only [hb] at h
    cases h
    exact .inl ⟨rfl, rfl⟩

theorem resolveAt_apply_eq_ok {raw : ClassId} {args : List TypeExpr}
    (h : resolveAt (n + 1) (.apply raw args) site t = .ok r t') :
    ∃ as, args.mapM (fun arg => resolveAt n arg site) t = .ok as t' ∧ r = .apply raw as := by
  simp only [resolveAt] at h
  obtain ⟨as, s, has, h⟩ := bind_eq_ok_iff.1 h
  cases h
  exact ⟨as, has, rfl⟩

theorem resolveAt_wildcard_eq_ok {lower upper : List TypeExpr}
    (h : resolveAt (n + 1) (.wildcard lower upper) site t = .ok r t') :
    (r = .object ∧ t' = t) ∨
      ∃ bound, lower.head?.or upper.head? = some bound ∧ resolveAt n bound site t = .ok r t' := by
  simp only [resolveAt] at h
  cases hb : lower.head?.or upper.head? with
  | some bound =>
    simp only [hb] at h
    exact .inr ⟨bound, rfl, h⟩
  | none =>
    simp only [hb] at h
    cases h
    exact .inl ⟨rfl, rfl⟩

/-- A variable is erased, or its argument in the scope is resolved. -/
theorem resolveAt_var_eq_ok (h : resolveAt (n + 1) (.var owner name) site t = .ok r t') :
    ∃ c index params, t.lookup owner = .ok c ∧ t.collectParameters site owner = .ok params ∧
      (eraseBound n c index t = .ok r t' ∨
        ∃ arg ∈ params, resolveAt n arg site t = .ok r t') := by
  simp only [resolveAt] at h
  obtain ⟨t₀, s, hget, h₁⟩ := bind_eq_ok_iff.1 h
  cases hget
  obtain ⟨c, s, hc, h₂⟩ := bind_eq_ok_iff.1 h₁
  obtain ⟨hc, rfl⟩ := ofExcept_eq_ok_iff.1 hc
  cases hi : c.typeParamIndex? name with
  | none => simp only [hi] at h₂; cases h₂
  | some index =>
    simp only [hi] at h₂
    obtain ⟨params, s, hp, h₃⟩ := bind_eq_ok_iff.1 h₂
    obtain ⟨hp, rfl⟩ := ofExcept_eq_ok_iff.1 hp
    refine ⟨c, index, params, hc, hp, ?_⟩
    cases ha : params[index]? with
    | none => simp only [ha] at h₃; exact .inl h₃
    | some arg =>
      simp only [ha] at h₃
      by_cases hself : arg = .var owner name
      · rw [if_pos hself] at h₃; exact .inl h₃
      · rw [if_neg hself] at h₃; exact .inr ⟨arg, List.mem_of_getElem? ha, h₃⟩

end Answers

/-! ## Resolved answers -/

/-- An erasure is a class. -/
theorem eraseAt_eq_named {n : Nat} {ty r : TypeExpr} {t t' : ClassTable}
    (h : eraseAt n ty t = .ok r t') : ∃ id, r = .named id := by
  induction n generalizing ty t r with
  | zero => cases h
  | succ n ih =>
    cases ty with
    | named id => cases h; exact ⟨id, rfl⟩
    | apply raw args => cases h; exact ⟨raw, rfl⟩
    | wildcard lower upper =>
      cases upper with
      | nil => cases h; exact ⟨.object, rfl⟩
      | cons bound rest => exact ih h
    | var owner name =>
      obtain ⟨c, -, ⟨rfl, -⟩ | ⟨i, bound, -, h⟩⟩ := eraseAt_var_eq_ok h
      · exact ⟨.object, rfl⟩
      · exact ih h
    | array component =>
      obtain ⟨c, s, id, -, -, rfl⟩ := arrayType_eq_ok h
      exact ⟨id, rfl⟩

theorem eraseBound_eq_named {n index : Nat} {c : Class} {r : TypeExpr} {t t' : ClassTable}
    (h : eraseBound n c index t = .ok r t') : ∃ id, r = .named id := by
  rcases eraseBound_eq_ok h with ⟨rfl, -⟩ | ⟨bound, -, h⟩
  · exact ⟨.object, rfl⟩
  · exact eraseAt_eq_named h

theorem resolveAt_resolved {n : Nat} {ty site r : TypeExpr} {t t' : ClassTable}
    (h : resolveAt n ty site t = .ok r t') : Resolved n r := by
  induction n generalizing ty t r t' with
  | zero => cases h
  | succ n ih =>
    cases ty with
    | named id => cases h; exact Resolved.named n id
    | apply raw args =>
      obtain ⟨as, has, rfl⟩ := resolveAt_apply_eq_ok h
      exact Resolved.apply_iff.2 (forall_mem_of_mapM (fun a _ s b s' hb => ih hb) has)
    | wildcard lower upper =>
      rcases resolveAt_wildcard_eq_ok h with ⟨rfl, -⟩ | ⟨bound, -, h⟩
      · exact Resolved.named n .object
      · exact (ih h).mono (Nat.le_succ n)
    | var owner name =>
      obtain ⟨c, index, params, -, -, h | ⟨arg, -, h⟩⟩ := resolveAt_var_eq_ok h
      · obtain ⟨id, rfl⟩ := eraseBound_eq_named h
        exact Resolved.named n id
      · exact (ih h).mono (Nat.le_succ n)
    | array component =>
      obtain ⟨c, s, id, -, -, rfl⟩ := arrayType_eq_ok h
      exact Resolved.named n id

theorem resolveAt_of_resolved {n : Nat} {ty : TypeExpr} (h : Resolved n ty) (site : TypeExpr)
    (t : ClassTable) : resolveAt n ty site t = .ok ty t := by
  induction n generalizing ty with
  | zero => exact absurd h.pos (Nat.lt_irrefl 0)
  | succ n ih =>
    cases ty with
    | named id => rfl
    | apply raw args =>
      have hargs := Resolved.apply_iff.1 h
      simp only [resolveAt]
      rw [bind_of_ok (mapM_eq_self fun arg harg => ih (hargs arg harg))]
      rfl
    | wildcard lower upper => cases h.concrete
    | var owner name => cases h.concrete
    | array component => cases h.concrete

/-- When it does not fail, a type without variables, wildcards and arrays resolves to itself. -/
theorem resolveAt_of_concrete {n : Nat} {ty site r : TypeExpr} {t t' : ClassTable}
    (hty : ty.isConcrete = true) (h : resolveAt n ty site t = .ok r t') :
    Resolved n ty ∧ r = ty ∧ t' = t := by
  have hself : r = ty := by
    induction n generalizing ty t r t' with
    | zero => cases h
    | succ n ih =>
      cases ty with
      | named id => cases h; rfl
      | apply raw args =>
        obtain ⟨as, has, rfl⟩ := resolveAt_apply_eq_ok h
        have hargs : as = args.map id := mapM_eq_map
          (fun arg harg _ _ _ hb => ih (areConcrete_iff.1 hty arg harg) hb) has
        rw [hargs, List.map_id]
      | wildcard lower upper => cases hty
      | var owner name => cases hty
      | array component => cases hty
  subst hself
  have hresolved := resolveAt_resolved h
  rw [resolveAt_of_resolved hresolved] at h
  cases h
  exact ⟨hresolved, rfl, rfl⟩

/-! ## Failures -/

/-- The failures of a resolution: a class or a variable that is not declared, or too many levels. -/
inductive ResolutionFailure : Error → Prop
  | unknownClass (id : ClassId) : ResolutionFailure (.unknownClass id)
  | unresolvedVariable (owner : ClassId) (name : String) (site : TypeExpr) :
      ResolutionFailure (.unresolvedVariable owner name site)
  | resolutionDepth (ty site : TypeExpr) : ResolutionFailure (.internal (.resolutionDepth ty site))
  | erasureDepth (ty : TypeExpr) : ResolutionFailure (.internal (.erasureDepth ty))
  | searchDepth (target : ClassId) (ty : TypeExpr) :
      ResolutionFailure (.internal (.searchDepth target ty))

/-- The failures of looking up classes, searching parameters and erasing: those of a resolution that are not
about a variable. -/
inductive LookupFailure : Error → Prop
  | unknownClass (id : ClassId) : LookupFailure (.unknownClass id)
  | erasureDepth (ty : TypeExpr) : LookupFailure (.internal (.erasureDepth ty))
  | searchDepth (target : ClassId) (ty : TypeExpr) :
      LookupFailure (.internal (.searchDepth target ty))

theorem LookupFailure.resolution {e : Error} (h : LookupFailure e) : ResolutionFailure e := by
  cases h with
  | unknownClass id => exact .unknownClass id
  | erasureDepth ty => exact .erasureDepth ty
  | searchDepth target ty => exact .searchDepth target ty

/-- The failure names a type that has no class. -/
def unresolved (e : Error) : Prop := ∃ ty, e = .internal (.unresolvedType ty)

theorem ResolutionFailure.not_unresolved {e : Error} (h : ResolutionFailure e) : ¬ unresolved e := by
  rintro ⟨ty, rfl⟩
  cases h

theorem lookup_error {t : ClassTable} {id : ClassId} {e : Error} (h : t.lookup id = .error e) :
    e = .unknownClass id := by
  unfold lookup at h
  split at h
  · cases h
  · cases h; rfl

theorem lookup_failure {t : ClassTable} {id : ClassId} {e : Error}
    (h : t.lookup id = .error e) : LookupFailure e :=
  lookup_error h ▸ .unknownClass id

theorem arrayOf_raises (component : TypeExpr) : Raises LookupFailure (arrayOf component) := by
  intro t e t' h
  unfold arrayOf at h
  split at h
  · next e' he =>
    cases h
    obtain ⟨raw, -, hraw⟩ := Option.map_eq_some_iff.1 he
    exact lookup_failure hraw
  · cases h

theorem firstNonEmpty_error {α β : Type} {f : α → Except Error (List β)} {as : List α} {e : Error}
    (h : firstNonEmpty f as = .error e) : ∃ a ∈ as, f a = .error e := by
  induction as with
  | nil => cases h
  | cons a as ih =>
    unfold firstNonEmpty at h
    cases ha : f a with
    | error e' =>
      simp only [ha] at h
      cases h
      exact ⟨a, List.mem_cons_self .., ha⟩
    | ok bs =>
      simp only [ha] at h
      split at h
      · obtain ⟨a', ha', hf⟩ := ih h
        exact ⟨a', List.mem_cons_of_mem _ ha', hf⟩
      · cases h

theorem searchParameters_failure {t : ClassTable} {target : ClassId} {n : Nat}
    {ty : TypeExpr} {e : Error} (h : t.searchParameters target n ty = .error e) :
    LookupFailure e := by
  induction n generalizing ty with
  | zero => cases h; exact .searchDepth target ty
  | succ n ih =>
    unfold searchParameters at h
    split at h
    · cases h
    · split at h
      · cases h
      · split at h
        · next he => cases h; exact lookup_failure he
        · simp only at h
          split at h
          · cases h
          · obtain ⟨sup, -, hsup⟩ := firstNonEmpty_error h
            exact ih hsup

theorem eraseAt_raises (n : Nat) (ty : TypeExpr) : Raises LookupFailure (eraseAt n ty) := by
  induction n generalizing ty with
  | zero => exact Raises.throw (.erasureDepth ty)
  | succ n ih =>
    cases ty with
    | named id => exact Raises.pure _
    | apply raw args => exact Raises.pure _
    | wildcard lower upper =>
      cases upper with
      | nil => exact Raises.pure _
      | cons bound rest => exact ih bound
    | var owner name =>
      simp only [eraseAt]
      refine Raises.bind Raises.get fun t => ?_
      refine Raises.bind (Raises.ofExcept fun e he => lookup_failure he) fun c => ?_
      split
      · exact ih _
      · exact Raises.pure _
    | array component =>
      simp only [eraseAt]
      exact Raises.bind (ih component) fun c => Raises.bind (arrayOf_raises c) fun _ => Raises.pure _

theorem eraseBound_raises (n : Nat) (c : Class) (index : Nat) :
    Raises LookupFailure (eraseBound n c index) := by
  unfold eraseBound
  split
  · exact eraseAt_raises n _
  · exact Raises.pure _

/-- Resolution never fails for want of a class for a type, and always ends. -/
theorem resolveAt_raises (n : Nat) (ty site : TypeExpr) :
    Raises ResolutionFailure (resolveAt n ty site) := by
  induction n generalizing ty with
  | zero => exact Raises.throw (.resolutionDepth ty site)
  | succ n ih =>
    cases ty with
    | named id => exact Raises.pure _
    | apply raw args =>
      simp only [resolveAt]
      exact Raises.bind (Raises.mapM ih args) fun _ => Raises.pure _
    | wildcard lower upper =>
      simp only [resolveAt]
      split
      · exact ih _
      · exact Raises.pure _
    | var owner name =>
      simp only [resolveAt]
      refine Raises.bind Raises.get fun t => ?_
      refine Raises.bind (Raises.ofExcept fun e he => (lookup_failure he).resolution) fun c => ?_
      split
      · exact Raises.throw (.unresolvedVariable owner name site)
      · next index _ =>
        refine Raises.bind (Raises.ofExcept fun e he => (searchParameters_failure he).resolution)
          fun params => ?_
        split
        · split
          · exact (eraseBound_raises n c index).mono fun _ => LookupFailure.resolution
          · exact ih _
        · exact (eraseBound_raises n c index).mono fun _ => LookupFailure.resolution
    | array component =>
      simp only [resolveAt]
      exact Raises.bind (ih component) fun c =>
        Raises.bind ((arrayOf_raises c).mono fun _ => LookupFailure.resolution) fun _ => Raises.pure _

end Introspect.ClassTable
