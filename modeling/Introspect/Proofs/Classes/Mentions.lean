import Introspect.Proofs.Classes.Assignability

/-!
Classes that type expressions name, and tables that are complete for them.

Resolution makes array classes, so that one table may know more of them than another. An expression is
grounded in the smaller table when it names none of the classes that only the larger one knows; resolution
keeps that, and about the class of a grounded type both tables agree.

* `Anchored`: what the classes of a table hand on is grounded in it.
* `resolveAt_grounded`: the answer of a resolution is grounded.
* `Anchored.isAssignable`: a table and the larger one assign the same.
-/

namespace Introspect

namespace TypeExpr

mutual

/-- The classes an expression names, the owners of its variables among them. -/
def ids : TypeExpr → List ClassId
  | .named id => [id]
  | .apply raw args => raw :: idsOfAll args
  | .wildcard lower upper => idsOfAll lower ++ idsOfAll upper
  | .var owner _ => [owner]
  | .array component => component.ids

def idsOfAll : List TypeExpr → List ClassId
  | [] => []
  | ty :: tys => ty.ids ++ idsOfAll tys

end

theorem mem_idsOfAll {tys : List TypeExpr} {id : ClassId} :
    id ∈ idsOfAll tys ↔ ∃ ty ∈ tys, id ∈ ty.ids := by
  induction tys with
  | nil => simp [idsOfAll]
  | cons ty tys ih => simp [idsOfAll, ih]

theorem raw?_of_parts? {ty : TypeExpr} {raw : ClassId} {args : List TypeExpr}
    (h : ty.parts? = some (raw, args)) : ty.raw? = some raw := by
  cases ty with
  | named id => cases h; rfl
  | apply r as => cases h; rfl
  | wildcard lower upper => cases h
  | var owner name => cases h
  | array component => cases h

theorem parts?_of_raw? {ty : TypeExpr} {raw : ClassId} (h : ty.raw? = some raw) :
    ∃ args, ty.parts? = some (raw, args) := by
  cases ty with
  | named id => cases h; exact ⟨[], rfl⟩
  | apply r args => cases h; exact ⟨args, rfl⟩
  | wildcard lower upper => cases h
  | var owner name => cases h
  | array component => cases h

theorem mem_ids_of_raw {ty : TypeExpr} {id : ClassId} (h : ty.raw? = some id) : id ∈ ty.ids := by
  cases ty with
  | named i => cases h; simp [ids]
  | apply raw args => cases h; simp [ids]
  | wildcard lower upper => cases h
  | var owner name => cases h
  | array component => cases h

mutual

/-- Binding variables names no class but those of the expression and the arguments. -/
theorem ids_bindVars {owner : Class} {args : List TypeExpr} {id : ClassId} :
    ∀ ty : TypeExpr, id ∈ (bindVars owner args ty).ids →
      id ∈ ty.ids ∨ ∃ arg ∈ args, id ∈ arg.ids
  | .named i, h => .inl h
  | .apply raw inner, h => by
    simp only [bindVars, ids, List.mem_cons] at h ⊢
    rcases h with h | h
    · exact .inl (.inl h)
    · rcases ids_bindVarsList inner h with h | h
      · exact .inl (.inr h)
      · exact .inr h
  | .wildcard lower upper, h => by
    simp only [bindVars, ids, List.mem_append] at h ⊢
    rcases h with h | h
    · rcases ids_bindVarsList lower h with h | h
      · exact .inl (.inl h)
      · exact .inr h
    · rcases ids_bindVarsList upper h with h | h
      · exact .inl (.inr h)
      · exact .inr h
  | .var o name, h => by
    simp only [bindVars] at h
    split at h
    · cases hb : (owner.typeParamIndex? name).bind fun i => args[i]? with
      | none => rw [hb] at h; exact .inl h
      | some arg =>
        rw [hb] at h
        obtain ⟨i, -, hi⟩ := Option.bind_eq_some_iff.1 hb
        exact .inr ⟨arg, List.mem_of_getElem? hi, h⟩
    · exact .inl h
  | .array component, h => by
    simp only [bindVars, ids] at h ⊢
    exact ids_bindVars component h

theorem ids_bindVarsList {owner : Class} {args : List TypeExpr} {id : ClassId} :
    ∀ tys : List TypeExpr, id ∈ idsOfAll (bindVarsList owner args tys) →
      id ∈ idsOfAll tys ∨ ∃ arg ∈ args, id ∈ arg.ids
  | [], h => .inl h
  | ty :: tys, h => by
    simp only [bindVarsList, idsOfAll, List.mem_append] at h ⊢
    rcases h with h | h
    · rcases ids_bindVars ty h with h | h
      · exact .inl (.inl h)
      · exact .inr h
    · rcases ids_bindVarsList tys h with h | h
      · exact .inl (.inr h)
      · exact .inr h

end

theorem ids_substitute {owner : Class} {args : List TypeExpr} {ty : TypeExpr} {id : ClassId}
    (h : id ∈ (substitute owner args ty).ids) : id ∈ ty.ids ∨ ∃ arg ∈ args, id ∈ arg.ids := by
  unfold substitute at h
  split at h
  · exact .inl h
  · exact ids_bindVars ty h

end TypeExpr

/-- The type expressions of a declaration: its supertypes, the bounds of its type parameters, the types of
its fields and the results and parameters of its methods. -/
def Class.mentions (c : Class) : List TypeExpr :=
  c.supertypes ++ c.typeParams.flatMap (·.bounds) ++ c.fields.map (·.type) ++
    c.methods.flatMap fun m => m.returns.toList ++ m.params

/-- The type expression of an array's components. -/
def Class.component? (c : Class) : Option TypeExpr :=
  match c.kind with
  | .array component => some component
  | _ => none

section Mentions

variable {c : Class} {ty : TypeExpr}

theorem Class.mentions_supertype (h : ty ∈ c.supertypes) : ty ∈ c.mentions := by
  simp only [mentions, List.mem_append]
  exact .inl (.inl (.inl h))

theorem Class.mentions_bound {p : TypeParam} (hp : p ∈ c.typeParams) (h : ty ∈ p.bounds) :
    ty ∈ c.mentions := by
  simp only [mentions, List.mem_append]
  exact .inl (.inl (.inr (List.mem_flatMap.2 ⟨p, hp, h⟩)))

theorem Class.mentions_field {f : Field} (hf : f ∈ c.fields) : f.type ∈ c.mentions := by
  simp only [mentions, List.mem_append]
  exact .inl (.inr (List.mem_map_of_mem hf))

theorem Class.mentions_result {m : Method} (hm : m ∈ c.methods) (h : m.returns = some ty) :
    ty ∈ c.mentions := by
  simp only [mentions, List.mem_append]
  exact .inr (List.mem_flatMap.2 ⟨m, hm, by simp [h]⟩)

theorem Class.mentions_param {m : Method} (hm : m ∈ c.methods) (h : ty ∈ m.params) :
    ty ∈ c.mentions := by
  simp only [mentions, List.mem_append]
  exact .inr (List.mem_flatMap.2 ⟨m, hm, by simp [h]⟩)

end Mentions

namespace ClassTable

open TypeExpr

/-! ## Grounded expressions -/

/-- The expression names no class that only the larger table `u` knows. -/
def Grounded (u t : ClassTable) (ty : TypeExpr) : Prop :=
  ∀ id ∈ ty.ids, u.contains id = true → t.contains id = true

structure Anchored (u t : ClassTable) : Prop where
  within : t.Within u
  object : t.contains .object = true
  mentions : ∀ id c, t.find? id = some c → ∀ ty ∈ c.mentions, Grounded u t ty

variable {u t t' : ClassTable}

theorem Grounded.mono {ty : TypeExpr} (h : Grounded u t ty) (ht : t.Within t') :
    Grounded u t' ty :=
  fun id hid hu => ht.contains (h id hid hu)

theorem Anchored.grounded_object (h : Anchored u t) : Grounded u t .object := by
  intro id hid _
  cases List.mem_singleton.1 hid
  exact h.object

theorem grounded_of_contains {id : ClassId} (h : t.contains id = true) :
    Grounded u t (.named id) := by
  intro i hi _
  cases List.mem_singleton.1 hi
  exact h

/-- Array classes lead to `Object` only, so that a table stays anchored when it gets some. -/
theorem Anchored.extend (h : Anchored u t) (ht : t.Extends t') (hu : t'.Within u) :
    Anchored u t' where
  within := hu
  object := ht.within.contains h.object
  mentions id c hc ty hty := by
    rcases ht.arrays id c hc with hc | ⟨component, rfl⟩
    · exact (h.mentions id c hc ty hty).mono ht.within
    · have hobject : ty = .object := by
        simpa [Class.mentions, Class.supertypes, arrayClass, Class.bare] using hty
      rw [hobject]
      exact h.grounded_object.mono ht.within

/-- A class that a grounded expression names is found in both tables, or in none. -/
theorem Anchored.lookup (h : Anchored u t) {id : ClassId} {c : Class}
    (hid : Grounded u t (.named id)) (hu : u.lookup id = .ok c) : t.lookup id = .ok c := by
  have hc := lookup_eq_ok_iff.1 hu
  have hin : t.contains id = true :=
    hid id (List.mem_singleton_self _) (contains_iff.2 ⟨c, hc⟩)
  obtain ⟨d, hd⟩ := contains_iff.1 hin
  have hsame := h.within id d hd
  rw [hc] at hsame
  cases hsame
  exact lookup_eq_ok_iff.2 hd

theorem Grounded.raw {ty : TypeExpr} {id : ClassId} (h : Grounded u t ty) (hr : ty.raw? = some id) :
    Grounded u t (.named id) := by
  intro i hi
  cases List.mem_singleton.1 hi
  exact h id (mem_ids_of_raw hr)

theorem Grounded.owner {owner : ClassId} {name : String} (h : Grounded u t (.var owner name)) :
    Grounded u t (.named owner) :=
  h

theorem Grounded.rawClass {n : Nat} {ty : TypeExpr} (h : Grounded u t ty)
    (hty : Resolved (n + 1) ty) : Grounded u t (.named ty.rawClass) := by
  obtain ⟨raw, args, hp, -⟩ := hty.parts
  have hraw := raw?_of_parts? hp
  have hr : ty.rawClass = raw := by
    unfold TypeExpr.rawClass
    rw [hraw]
    rfl
  exact hr ▸ h.raw hraw

theorem Anchored.supertypes (h : Anchored u t) {id : ClassId}
    (hid : Grounded u t (.named id)) : u.supertypes id = t.supertypes id := by
  refine visit_congr h.within (fun raw c hc s hs hu => ?_) fun s hs => ?_
  · obtain ⟨ty, hty, hraw⟩ := List.mem_filterMap.1 hs
    exact h.mentions raw c hc ty (Class.mentions_supertype hty) s (mem_ids_of_raw hraw) hu
  · cases List.mem_singleton.1 hs
    exact hid id (List.mem_singleton_self _)

theorem Anchored.isAssignable (h : Anchored u t) {source : ClassId}
    (hs : Grounded u t (.named source)) (target : ClassId) :
    u.isAssignable target source = t.isAssignable target source :=
  isAssignable_congr h.within (hs source (List.mem_singleton_self _)) (h.supertypes hs) target

/-- A chain of superclasses of the larger table does not leave the smaller one. -/
theorem Anchored.chainFrom (h : Anchored u t) {n : Nat} {c : Class} {cs : List Class}
    (hc : t.find? c.id = some c) (hu : u.chainFrom n c = .ok cs) : t.chainFrom n c = .ok cs := by
  induction n generalizing c cs with
  | zero => cases hu
  | succ n ih =>
    rcases chainFrom_succ_eq_ok hu with ⟨hs, rfl⟩ | ⟨s, p, ds, hs, hp, hd, rfl⟩
    · simp only [ClassTable.chainFrom, hs]
    · obtain ⟨ty, hsuper, hraw⟩ := Option.bind_eq_some_iff.1 hs
      have hin : ty ∈ c.supertypes := List.mem_append_left _ (by simp [hsuper])
      have hg : Grounded u t (.named s) :=
        (h.mentions c.id c hc ty (Class.mentions_supertype hin)).raw hraw
      have hp' := h.lookup hg hp
      have hpid := find?_id (lookup_eq_ok_iff.1 hp')
      have hd' := ih (hpid.symm ▸ lookup_eq_ok_iff.1 hp') hd
      simp only [ClassTable.chainFrom, hs, hp', hd']

theorem Anchored.superclassChain (h : Anchored u t) {t' : ClassTable} (ht' : t'.Within u) {c : Class}
    {cs : List Class} (hc : t.find? c.id = some c) (hcs : t'.superclassChain c = .ok cs) :
    t.superclassChain c = .ok cs :=
  superclassChain_of_chainFrom hc (h.chainFrom hc (ht'.chainFrom (Nat.le_refl _) hcs))

/-! ## Parameter search -/

theorem firstNonEmpty_mem {α β : Type} {f : α → Except Error (List β)} {as : List α} {bs : List β}
    (h : firstNonEmpty f as = .ok bs) {b : β} (hb : b ∈ bs) :
    ∃ a ∈ as, ∃ cs, f a = .ok cs ∧ b ∈ cs := by
  induction as with
  | nil => cases h; cases hb
  | cons a as ih =>
    unfold firstNonEmpty at h
    cases ha : f a with
    | error e => simp only [ha] at h; cases h
    | ok cs =>
      simp only [ha] at h
      split at h
      · obtain ⟨a', ha', hrest⟩ := ih h
        exact ⟨a', List.mem_cons_of_mem _ ha', hrest⟩
      · cases h
        exact ⟨a, List.mem_cons_self .., bs, ha, hb⟩

theorem grounded_args {ty : TypeExpr} {raw : ClassId} {args : List TypeExpr}
    (h : Grounded u t ty) (hp : ty.parts? = some (raw, args)) :
    ∀ arg ∈ args, Grounded u t arg := by
  intro arg harg id hid hu
  cases ty with
  | named i => cases hp; cases harg
  | apply r as =>
    cases hp
    refine h id ?_ hu
    simp only [ids, List.mem_cons]
    exact .inr (mem_idsOfAll.2 ⟨arg, harg, hid⟩)
  | wildcard lower upper => cases hp
  | var owner name => cases hp
  | array component => cases hp

theorem Grounded.substitute {c : Class} {args : List TypeExpr} {ty : TypeExpr}
    (hty : Grounded u t ty) (hargs : ∀ arg ∈ args, Grounded u t arg) :
    Grounded u t (TypeExpr.substitute c args ty) := by
  intro id hid hu
  rcases ids_substitute hid with hid | ⟨arg, harg, hid⟩
  · exact hty id hid hu
  · exact hargs arg harg id hid hu

theorem argumentsOf?_eq_some {target : ClassId} {ty : TypeExpr} {args : List TypeExpr}
    (h : argumentsOf? target ty = some args) : ty.parts? = some (target, args) := by
  cases ty with
  | apply raw as =>
    simp only [argumentsOf?] at h
    split at h
    · next heq => cases h; rw [← heq]; rfl
    · cases h
  | named id => cases h
  | wildcard lower upper => cases h
  | var owner name => cases h
  | array component => cases h

/-- What types hand on to their arguments, and classes to their supertypes under such arguments, is true of
every argument that a search finds. -/
theorem searchParameters_forall {P : TypeExpr → Prop}
    (hargs : ∀ {ty raw args}, P ty → ty.parts? = some (raw, args) → ∀ arg ∈ args, P arg)
    (hsupers : ∀ {raw c args}, t.lookup raw = .ok c → (∀ arg ∈ args, P arg) →
      ∀ sup ∈ c.supertypes, P (TypeExpr.substitute c args sup))
    {target : ClassId} {n : Nat} {ty : TypeExpr} {args : List TypeExpr} (hty : P ty)
    (hs : t.searchParameters target n ty = .ok args) : ∀ arg ∈ args, P arg := by
  induction n generalizing ty args with
  | zero => cases hs
  | succ n ih =>
    unfold searchParameters at hs
    cases hp : ty.parts? with
    | none => simp only [hp] at hs; cases hs; intro arg harg; cases harg
    | some p =>
      obtain ⟨raw, inner⟩ := p
      simp only [hp] at hs
      have hinner := hargs hty hp
      by_cases hr : raw = target
      · simp only [hr, if_true] at hs; cases hs; exact hinner
      · simp only [hr, if_false] at hs
        cases hc : t.lookup raw with
        | error e => simp only [hc] at hs; cases hs
        | ok c =>
          simp only [hc] at hs
          have hall : ∀ sup ∈ c.supertypes.map (TypeExpr.substitute c inner), P sup := by
            intro sup hsup
            obtain ⟨s, hs, rfl⟩ := List.mem_map.1 hsup
            exact hsupers hc hinner s hs
          cases hf : (c.supertypes.map (TypeExpr.substitute c inner)).findSome?
              (argumentsOf? target) with
          | some found =>
            simp only [hf] at hs
            cases hs
            obtain ⟨sup, hsup, hfound⟩ := List.exists_of_findSome?_eq_some hf
            exact hargs (hall sup hsup) (argumentsOf?_eq_some hfound)
          | none =>
            simp only [hf] at hs
            intro arg harg
            obtain ⟨sup, hsup, cs, hcs, hin⟩ := firstNonEmpty_mem hs harg
            exact ih (hall sup hsup) hcs arg hin

theorem searchParameters_grounded (h : Anchored u t) {target : ClassId} {n : Nat} {ty : TypeExpr}
    {args : List TypeExpr} (hty : Grounded u t ty)
    (hs : t.searchParameters target n ty = .ok args) : ∀ arg ∈ args, Grounded u t arg :=
  searchParameters_forall (P := Grounded u t) grounded_args
    (fun hc hargs s hs => Grounded.substitute
      (h.mentions _ _ (lookup_eq_ok_iff.1 hc) s (Class.mentions_supertype hs)) hargs) hty hs

/-- Both tables supply the same arguments to a grounded expression. -/
theorem Anchored.collectParameters (h : Anchored u t) {target : ClassId} {site : TypeExpr}
    {args : List TypeExpr} (hsite : Grounded u t site)
    (hu : u.collectParameters site target = .ok args) :
    t.collectParameters site target = .ok args := by
  refine searchParameters_of_lookup (P := Grounded u t) ?_ hsite hu
  intro ty raw inner c hty hp hc
  have hc' := h.lookup (hty.raw (raw?_of_parts? hp)) hc
  refine ⟨c, hc', .refl c, fun sup hsup => ?_⟩
  exact Grounded.substitute
    (h.mentions raw c (lookup_eq_ok_iff.1 hc') sup (Class.mentions_supertype hsup))
    (grounded_args hty hp)

/-! ## Resolution -/

theorem arrayOf_grounded {component : TypeExpr} {id : ClassId}
    (h : arrayOf component t = .ok id t') : Grounded u t' (.named id) := by
  obtain ⟨rfl, rfl, -⟩ := arrayOf_eq_ok h
  exact grounded_of_contains (contains_intern t (arrayClass component))

theorem bound_grounded (h : Anchored u t) {owner : ClassId} {c : Class}
    (hc : t.lookup owner = .ok c) {i : Nat} {bound : TypeExpr}
    (hb : c.typeParams[i]?.bind (·.bounds.head?) = some bound) : Grounded u t bound := by
  obtain ⟨p, hp, hhead⟩ := Option.bind_eq_some_iff.1 hb
  exact h.mentions owner c (lookup_eq_ok_iff.1 hc) bound
    (Class.mentions_bound (List.mem_of_getElem? hp) (List.mem_of_mem_head? hhead))

theorem Grounded.apply {raw : ClassId} {args as : List TypeExpr}
    (h : Grounded u t (.apply raw args)) (ht : t.Within t') (has : ∀ a ∈ as, Grounded u t' a) :
    Grounded u t' (.apply raw as) := by
  intro id hid hu
  simp only [ids, List.mem_cons] at hid
  rcases hid with rfl | hid
  · exact ht.contains (h id (by simp [ids]) hu)
  · obtain ⟨a, ha, hid⟩ := mem_idsOfAll.1 hid
    exact has a ha id hid hu

/-- A bound of a grounded wildcard. -/
theorem Grounded.bound {lower upper : List TypeExpr} (h : Grounded u t (.wildcard lower upper))
    {bound : TypeExpr} (hb : bound ∈ lower ++ upper) : Grounded u t bound := by
  intro id hid hu
  refine h id ?_ hu
  simp only [ids, List.mem_append]
  rcases List.mem_append.1 hb with hb | hb
  · exact .inl (mem_idsOfAll.2 ⟨bound, hb, hid⟩)
  · exact .inr (mem_idsOfAll.2 ⟨bound, hb, hid⟩)

theorem mem_bounds {lower upper : List TypeExpr} {bound : TypeExpr}
    (h : lower.head?.or upper.head? = some bound) : bound ∈ lower ++ upper := by
  rcases Option.or_eq_some_iff.1 h with hb | ⟨-, hb⟩
  · exact List.mem_append_left _ (List.mem_of_mem_head? hb)
  · exact List.mem_append_right _ (List.mem_of_mem_head? hb)

theorem eraseAt_grounded {n : Nat} {ty r : TypeExpr} (h : Anchored u t) (hty : Grounded u t ty)
    (hr : eraseAt n ty t = .ok r t') : Grounded u t' r := by
  induction n generalizing ty t r with
  | zero => cases hr
  | succ n ih =>
    cases ty with
    | named id => cases hr; exact hty
    | apply raw args => cases hr; exact hty.raw rfl
    | wildcard lower upper =>
      cases upper with
      | nil => cases hr; exact h.grounded_object
      | cons bound rest => exact ih h (hty.bound (by simp)) hr
    | var owner name =>
      obtain ⟨c, hc, ⟨rfl, rfl⟩ | ⟨i, bound, hb, hr⟩⟩ := eraseAt_var_eq_ok hr
      · exact h.grounded_object
      · exact ih h (bound_grounded h hc hb) hr
    | array component =>
      obtain ⟨c, s, id, -, hid, rfl⟩ := arrayType_eq_ok hr
      exact arrayOf_grounded hid

theorem eraseBound_grounded {n index : Nat} {owner : ClassId} {c : Class} {r : TypeExpr}
    (h : Anchored u t) (hc : t.lookup owner = .ok c) (hr : eraseBound n c index t = .ok r t') :
    Grounded u t' r := by
  rcases eraseBound_eq_ok hr with ⟨rfl, rfl⟩ | ⟨bound, hb, hr⟩
  · exact h.grounded_object
  · exact eraseAt_grounded h (bound_grounded h hc hb) hr

theorem resolveAt_grounded {n : Nat} {ty site r : TypeExpr} (h : Anchored u t)
    (hty : Grounded u t ty) (hsite : Grounded u t site) (hr : resolveAt n ty site t = .ok r t')
    (hu : t'.Within u) : Grounded u t' r := by
  induction n generalizing ty t r t' with
  | zero => cases hr
  | succ n ih =>
    cases ty with
    | named id => cases hr; exact hty
    | apply raw args =>
      obtain ⟨as, has, rfl⟩ := resolveAt_apply_eq_ok hr
      have hgrow : t.Within t' :=
        (Moves.mapM Within.refl Within.trans fun arg _ => resolveAt_grows n arg site).ok has
      have hargs : ∀ arg ∈ args, Grounded u t arg := grounded_args hty rfl
      have hall : ∀ a ∈ as, Grounded u t' a := by
        refine forall_mem_of_mapM_between Extends.refl Extends.trans
          (fun arg => resolveAt_extends n arg site) has fun arg harg s a s' hs hs' ha => ?_
        have hsu : s'.Within u := Within.trans _ _ _ hs'.within hu
        have hss : s.Within u := Within.trans _ _ _ ((resolveAt_grows n arg site).ok ha) hsu
        have hgrounded := ih (h.extend hs hss) ((hargs arg harg).mono hs.within)
          (hsite.mono hs.within) ha hsu
        exact hgrounded.mono hs'.within
      exact hty.apply hgrow hall
    | wildcard lower upper =>
      rcases resolveAt_wildcard_eq_ok hr with ⟨rfl, rfl⟩ | ⟨bound, hb, hr⟩
      · exact h.grounded_object
      · exact ih h (hty.bound (mem_bounds hb)) hsite hr hu
    | var owner name =>
      obtain ⟨c, index, params, hc, hp, hr | ⟨arg, harg, hr⟩⟩ := resolveAt_var_eq_ok hr
      · exact eraseBound_grounded h hc hr
      · exact ih h (searchParameters_grounded h hsite hp arg harg) hsite hr hu
    | array component =>
      obtain ⟨c, s, id, -, hid, rfl⟩ := arrayType_eq_ok hr
      exact arrayOf_grounded hid

/-! ## Scopes that supply the same -/

theorem collectParameters_congr {site site' : TypeExpr} (h : site.parts? = site'.parts?)
    (t : ClassTable) (target : ClassId) :
    t.collectParameters site target = t.collectParameters site' target := by
  simp only [collectParameters, searchParameters, h]

end ClassTable
end Introspect
