import Introspect.Proofs.Classes.Mentions

/-!
Classes that add nothing to their superclass.

What a scan computes from such a class, it computes from the superclass as well: the class declares no type
parameter that a variable could stand for, a search for type arguments passes it on the way up, and it
contributes no member to the closure of its supertypes.

* `Heir`: a class without members of its own.
* `Heir.collectParameters`: its scope supplies what the superclass supplies.
* `Heir.resolve`: a type that resolves in its scope resolves to the same in that of the superclass.
* `Heir.supertypes`: both have the same supertypes, but for the class itself.
* `Heir.superclassChain`: its chain goes on with that of the superclass.
-/

namespace Introspect.ClassTable

open TypeExpr

/-- `c` has a superclass, the class or parameterization `up` of `p`, and no other supertypes; it has no type
parameters and no fields, and its methods, if any, are those of a proxy. -/
structure Heir (t : ClassTable) (c : Class) (up : TypeExpr) (p : Class) : Prop where
  declared : t.find? c.id = some c
  typeParams : c.typeParams = []
  superclass : c.superclass = some up
  interfaces : c.interfaces = []
  fields : c.fields = []
  methods : c.methods = [] ∨ c.proxy = true
  raw : up.raw? = some p.id
  parent : t.find? p.id = some p

variable {t t' : ClassTable} {c p : Class} {up : TypeExpr}

theorem Heir.mono (h : Heir t c up p) (ht : t.Within t') : Heir t' c up p :=
  { h with declared := ht _ _ h.declared, parent := ht _ _ h.parent }

theorem Heir.supertypes_eq (h : Heir t c up p) : c.supertypes = [up] := by
  rw [Class.supertypes, h.superclass, h.interfaces]
  rfl

theorem Heir.supertypeIds_eq (h : Heir t c up p) : c.supertypeIds = [p.id] := by
  rw [Class.supertypeIds, h.supertypes_eq, List.filterMap_cons, h.raw]
  rfl

theorem Heir.superclassId?_eq (h : Heir t c up p) : c.superclassId? = some p.id := by
  rw [Class.superclassId?, h.superclass]
  exact h.raw

/-! ## Type arguments -/

/-- A search that answers does so with more levels as well. -/
theorem searchParameters_succ {target : ClassId} {n : Nat} {ty : TypeExpr} {args : List TypeExpr}
    (h : t.searchParameters target n ty = .ok args) :
    t.searchParameters target (n + 1) ty = .ok args := by
  induction n generalizing ty args with
  | zero => cases h
  | succ n ih =>
    rw [searchParameters] at h ⊢
    cases hp : ty.parts? with
    | none => simp only [hp] at h ⊢; exact h
    | some parts =>
      obtain ⟨raw, inner⟩ := parts
      simp only [hp] at h ⊢
      by_cases hr : raw = target
      · rw [if_pos hr] at h ⊢; exact h
      · rw [if_neg hr] at h ⊢
        cases hc : t.lookup raw with
        | error e => simp only [hc] at h; cases h
        | ok c =>
          simp only [hc] at h ⊢
          cases hf : (c.supertypes.map (TypeExpr.substitute c inner)).findSome?
              (argumentsOf? target) with
          | some found => simp only [hf] at h ⊢; exact h
          | none =>
            simp only [hf] at h ⊢
            exact firstNonEmpty_congr (fun sup _ cs hcs => ih hcs) h

/-- The search from the class, one level above that from its superclass. -/
theorem Heir.searchParameters (h : Heir t c up p) {site : TypeExpr} (hsite : site.parts? = some (c.id, []))
    {target : ClassId} (hne : c.id ≠ target) {n : Nat} {args : List TypeExpr}
    (hs : t.searchParameters target (n + 1) site = .ok args) :
    t.searchParameters target (n + 1) up = .ok args := by
  have hsupers : c.supertypes.map (TypeExpr.substitute c []) = [up] := by
    rw [h.supertypes_eq]
    rfl
  simp only [ClassTable.searchParameters, hsite, if_neg hne, lookup_eq_ok_iff.2 h.declared, hsupers] at hs
  cases hf : [up].findSome? (argumentsOf? target) with
  | some found =>
    -- the superclass is a parameterization of the target
    simp only [hf] at hs
    cases hs
    have hparts : up.parts? = some (target, args) := by
      obtain ⟨ty, hty, hargs⟩ := List.exists_of_findSome?_eq_some hf
      cases List.mem_singleton.1 hty
      exact argumentsOf?_eq_some hargs
    simp only [ClassTable.searchParameters, hparts, if_true]
  | none =>
    simp only [hf, firstNonEmpty] at hs
    cases hup : t.searchParameters target n up with
    | error e => simp only [hup] at hs; cases hs
    | ok found =>
      rw [searchParameters_succ hup]
      cases found with
      | nil => simp only [hup, List.isEmpty_nil, if_true] at hs; cases hs; rfl
      | cons a as => simpa [hup] using hs

/-- Scopes of the class and of its superclass. -/
structure Heir.Scopes (c : Class) (up site site' : TypeExpr) : Prop where
  own : site.parts? = some (c.id, [])
  parent : site'.parts? = up.parts?

section Scopes

variable {site site' : TypeExpr}

theorem Heir.collectParameters (h : Heir t c up p) (hs : Heir.Scopes c up site site') {target : ClassId}
    (hne : c.id ≠ target) {args : List TypeExpr} (ha : t.collectParameters site target = .ok args) :
    t.collectParameters site' target = .ok args := by
  rw [collectParameters_congr hs.parent]
  exact h.searchParameters hs.own hne ha

/-- The class declares no variables, so that none of its scope is missing in that of the superclass. -/
theorem Heir.resolveAt (h : Heir t c up p) (hs : Heir.Scopes c up site site') {n : Nat}
    {ty answer : TypeExpr} (hr : ClassTable.resolveAt n ty site t = .ok answer t') :
    ClassTable.resolveAt n ty site' t = .ok answer t' := by
  induction n generalizing ty t answer t' with
  | zero => cases hr
  | succ n ih =>
    cases ty with
    | named id => exact hr
    | apply raw args =>
      obtain ⟨as, has, rfl⟩ := resolveAt_apply_eq_ok hr
      have hargs : args.mapM (fun arg => ClassTable.resolveAt n arg site') t = .ok as t' :=
        mapM_eq_ok_of (I := fun s => Heir s c up p)
          (fun arg _ s b s' hheir hb =>
            ⟨ih hheir hb, hheir.mono ((resolveAt_grows n arg site).ok hb)⟩) h has
      simp only [ClassTable.resolveAt]
      rw [bind_of_ok hargs]
      rfl
    | wildcard lower upper =>
      simp only [ClassTable.resolveAt] at hr ⊢
      cases hb : lower.head?.or upper.head? with
      | some bound => simp only [hb] at hr ⊢; exact ih h hr
      | none => simp only [hb] at hr ⊢; exact hr
    | var owner name =>
      simp only [ClassTable.resolveAt] at hr ⊢
      obtain ⟨t₀, s, hget, h₁⟩ := bind_eq_ok_iff.1 hr
      cases hget
      obtain ⟨d, s, hd, h₂⟩ := bind_eq_ok_iff.1 h₁
      obtain ⟨hd, rfl⟩ := ofExcept_eq_ok_iff.1 hd
      rw [bind_of_ok (get_apply s), hd, bind_of_ok (ofExcept_ok d s)]
      cases hi : d.typeParamIndex? name with
      | none => simp only [hi] at h₂; cases h₂
      | some index =>
        simp only [hi] at h₂ ⊢
        obtain ⟨params, s', hp, h₃⟩ := bind_eq_ok_iff.1 h₂
        obtain ⟨hp, rfl⟩ := ofExcept_eq_ok_iff.1 hp
        have hne : c.id ≠ owner := by
          rintro rfl
          have hdc : d = c := Option.some.inj ((lookup_eq_ok_iff.1 hd).symm.trans h.declared)
          rw [hdc, Class.typeParamIndex?, h.typeParams] at hi
          cases hi
        rw [h.collectParameters hs hne hp, bind_of_ok (ofExcept_ok params s')]
        cases ha : params[index]? with
        | none => simp only [ha] at h₃ ⊢; exact h₃
        | some arg =>
          simp only [ha] at h₃ ⊢
          by_cases hself : arg = .var owner name
          · rw [if_pos hself] at h₃ ⊢; exact h₃
          · rw [if_neg hself] at h₃ ⊢; exact ih h h₃
    | array component =>
      obtain ⟨d, s, id, hd, hid, rfl⟩ := arrayType_eq_ok hr
      simp only [ClassTable.resolveAt]
      rw [bind_of_ok (ih h hd), bind_of_ok hid]
      rfl

/-- What resolves in the scope of the class resolves to the same in that of its superclass. -/
theorem Heir.resolve (h : Heir t c up p) (hs : Heir.Scopes c up site site') {ty answer : TypeExpr}
    (hr : ClassTable.resolve ty site t = .ok answer t') : ClassTable.resolve ty site' t = .ok answer t' :=
  h.resolveAt hs hr

end Scopes

/-! ## Supertypes -/

/-- The classes but the one of the id. -/
def without (id : ClassId) (cs : List Class) : List Class := cs.filter (·.id ≠ id)

theorem without_cons_self {d : Class} {id : ClassId} (h : d.id = id) (cs : List Class) :
    without id (d :: cs) = without id cs := by
  simp [without, h]

theorem without_cons_of_ne {d : Class} {id : ClassId} (h : d.id ≠ id) (cs : List Class) :
    without id (d :: cs) = d :: without id cs := by
  simp [without, h]

/-- A class that gives nothing may be left out. -/
theorem flatMap_without {β : Type} {g : Class → List β} {id : ClassId} {cs : List Class}
    (h : ∀ d ∈ cs, d.id = id → g d = []) : (without id cs).flatMap g = cs.flatMap g := by
  induction cs with
  | nil => rfl
  | cons d cs ih =>
    have hrest := ih fun e he => h e (List.mem_cons_of_mem d he)
    by_cases hd : d.id = id
    · rw [without_cons_self hd, List.flatMap_cons, h d List.mem_cons_self hd, hrest, List.nil_append]
    · rw [without_cons_of_ne hd, List.flatMap_cons, List.flatMap_cons, hrest]

theorem findSome?_without {β : Type} {g : Class → Option β} {id : ClassId} {cs : List Class}
    (h : ∀ d ∈ cs, d.id = id → g d = none) : (without id cs).findSome? g = cs.findSome? g := by
  induction cs with
  | nil => rfl
  | cons d cs ih =>
    have hrest := ih fun e he => h e (List.mem_cons_of_mem d he)
    by_cases hd : d.id = id
    · rw [without_cons_self hd, List.findSome?_cons, h d List.mem_cons_self hd, hrest]
    · rw [without_cons_of_ne hd, List.findSome?_cons, List.findSome?_cons, hrest]

/-- Two visits of one stack, one of which has the class behind it already. -/
structure Heir.Ahead (c p : Class) (visited visited' : List Class) : Prop where
  same : ∀ id, isVisited visited id = (id = c.id || isVisited visited' id)
  parent : isVisited visited' p.id = true
  without : without c.id visited = without c.id visited'

theorem Heir.Ahead.subset {visited visited' : List Class} (h : Heir.Ahead c p visited visited') (id : ClassId)
    (hid : isVisited visited' id = true) : isVisited visited id = true := by
  rw [h.same, hid, Bool.or_true]

theorem isVisited_cons (d : Class) (visited : List Class) (id : ClassId) :
    isVisited (d :: visited) id = (d.id = id || isVisited visited id) := by
  simp [isVisited]

theorem Heir.Ahead.cons {visited visited' : List Class} (h : Heir.Ahead c p visited visited') {d : Class}
    (hne : d.id ≠ c.id) : Heir.Ahead c p (d :: visited) (d :: visited') where
  same id := by
    rw [isVisited_cons, isVisited_cons, h.same id, Bool.or_left_comm]
  parent := by rw [isVisited_cons, h.parent, Bool.or_true]
  without := by rw [without_cons_of_ne hne, without_cons_of_ne hne, h.without]

/-- The other visit comes to the class, and finds its superclass behind it. -/
theorem Heir.Ahead.arrive {visited visited' : List Class} (h : Heir.Ahead c p visited visited') :
    Heir.Ahead c p visited (c :: visited') where
  same id := by
    rw [isVisited_cons, h.same id]
    by_cases hid : id = c.id <;> simp [hid, eq_comm]
  parent := by rw [isVisited_cons, h.parent, Bool.or_true]
  without := by rw [without_cons_self rfl, h.without]

theorem dropWhile_of_imp {α : Type} {q q' : α → Bool} (h : ∀ a, q' a = true → q a = true) (as : List α) :
    as.dropWhile q = (as.dropWhile q').dropWhile q := by
  induction as with
  | nil => rfl
  | cons a as ih =>
    cases hq' : q' a with
    | true => rw [List.dropWhile_cons_of_pos (h a hq'), List.dropWhile_cons_of_pos hq', ih]
    | false => rw [List.dropWhile_cons_of_neg (p := q') (by simp [hq'])]

/-- Only what is not visited yet matters of a stack. -/
theorem visit_dropWhile {stack stack' : List ClassId} {visited : List Class}
    (h : stack.dropWhile (isVisited visited) = stack'.dropWhile (isVisited visited)) :
    t.visit stack visited = t.visit stack' visited := by
  cases hs : stack'.dropWhile (isVisited visited) with
  | nil => rw [visit_nil (h.trans hs), visit_nil hs]
  | cons id rest =>
    cases hc : t.lookup id with
    | error e => rw [visit_unknown (h.trans hs) hc, visit_unknown hs hc]
    | ok c => rw [visit_found (h.trans hs) hc, visit_found hs hc]

/-- Both visits go through the same classes, but for the one that is behind. -/
theorem Heir.Ahead.visit {visited visited' cs ds : List Class} {stack : List ClassId}
    (ha : Heir.Ahead c p visited visited') (h : Heir t c up p) (hcs : t.visit stack visited = .ok cs)
    (hds : t.visit stack visited' = .ok ds) : ClassTable.without c.id cs = ClassTable.without c.id ds := by
  fun_induction t.visit stack visited' generalizing visited cs with
  | case1 stack visited' hs =>
    have hdrop := dropWhile_of_imp ha.subset stack
    rw [hs] at hdrop
    rw [visit_nil hdrop] at hcs
    cases hcs
    cases hds
    rw [ClassTable.without, ClassTable.without, List.filter_reverse, List.filter_reverse]
    exact congrArg List.reverse ha.without
  | case2 stack visited' id rest hs e he => cases hds
  | case3 stack visited' id rest hs d hd ih =>
    have hfound := lookup_eq_ok_iff.1 hd
    have hdrop := dropWhile_of_imp ha.subset stack
    rw [hs] at hdrop
    by_cases hid : id = c.id
    · -- the class itself, whose superclass both have behind them
      subst hid
      obtain rfl : d = c := Option.some.inj (hfound.symm.trans h.declared)
      have hself : isVisited visited d.id = true := by rw [ha.same]; simp
      have hparent : isVisited visited p.id = true := ha.subset p.id ha.parent
      rw [h.supertypeIds_eq] at hds ih
      have hsame : t.visit stack visited = t.visit ([p.id] ++ rest) visited := visit_dropWhile <| by
        rw [hdrop, List.dropWhile_cons_of_pos hself, List.singleton_append,
          List.dropWhile_cons_of_pos hparent]
      exact ih ha.arrive (hsame ▸ hcs) hds
    · have hnew : isVisited visited id = false := by
        rw [ha.same, dropWhile_head hs]
        simp [hid]
      rw [List.dropWhile_cons_of_neg (by simp [hnew])] at hdrop
      rw [visit_found hdrop hd] at hcs
      have hne : d.id ≠ c.id := by rwa [find?_id hfound]
      exact ih (ha.cons hne) hcs hds

/-- The class and its superclass have the same supertypes, in the same order, but for the class itself. -/
theorem Heir.supertypes (h : Heir t c up p) {cs ds : List Class} (hcs : t.supertypes c.id = .ok cs)
    (hds : t.supertypes p.id = .ok ds) : without c.id cs = without c.id ds := by
  have hc : t.supertypes c.id = t.visit [p.id] [c] := by
    have hfound : t.visit [c.id] [] = t.visit (c.supertypeIds ++ []) [c] :=
      visit_found rfl (lookup_eq_ok_iff.2 h.declared)
    rwa [h.supertypeIds_eq] at hfound
  have hp : t.supertypes p.id = t.visit p.supertypeIds [p] := by
    have hfound : t.visit [p.id] [] = t.visit (p.supertypeIds ++ []) [p] :=
      visit_found rfl (lookup_eq_ok_iff.2 h.parent)
    rwa [List.append_nil] at hfound
  rw [hc] at hcs
  rw [hp] at hds
  by_cases hpc : p.id = c.id
  · obtain rfl : p = c := by
      have hfound := h.parent
      rw [hpc] at hfound
      exact Option.some.inj (hfound.symm.trans h.declared)
    rw [h.supertypeIds_eq] at hds
    cases hcs.symm.trans hds
    rfl
  · have hdrop : [p.id].dropWhile (isVisited [c]) = [p.id] := by
      simp [isVisited, Ne.symm hpc]
    rw [visit_found hdrop (lookup_eq_ok_iff.2 h.parent), List.append_nil] at hcs
    refine Heir.Ahead.visit (c := c) ⟨fun id => ?_, ?_, ?_⟩ h hcs hds
    · simp [isVisited, eq_comm, Bool.or_comm]
    · simp [isVisited]
    · rw [without_cons_of_ne hpc, without_cons_self rfl, without_cons_of_ne hpc]

/-! ## Superclasses -/

theorem Heir.superclassChain (h : Heir t c up p) {cs ds : List Class} (hcs : t.superclassChain c = .ok cs)
    (hds : t.superclassChain p = .ok ds) : cs = c :: ds := by
  rcases chainFrom_succ_eq_ok hcs with ⟨hnone, -⟩ | ⟨s, q, es, hs, hq, hes, rfl⟩
  · rw [h.superclassId?_eq] at hnone
    cases hnone
  · cases h.superclassId?_eq.symm.trans hs
    obtain rfl : q = p := Option.some.inj ((lookup_eq_ok_iff.1 hq).symm.trans h.parent)
    rw [chainFrom_unique hes hds]

end Introspect.ClassTable
