import Introspect.Proofs.Classes.Mentions
import Introspect.Proofs.Following

/-!
Tables that declare every class they name.

Array classes are made as they are needed, and no declaration of such a table names one. So whatever array
classes were made before, a resolution answers the same.

* `Closed`, `Knows`: every class that a declaration or an expression names is declared.
* `Kindred`: two tables that have grown from a closed one, by array classes each.
* `Kindred.resolve`: what the one resolves, the other resolves as well.
* `Kindred.isAssignable`: both assign the same.
-/

namespace Introspect

/-- One class, or array classes of one id. -/
structure Class.Twin (c d : Class) : Prop where
  id : c.id = d.id
  same : c = d ∨ (∃ a, c = ClassTable.arrayClass a) ∧ ∃ b, d = ClassTable.arrayClass b

theorem Class.Twin.scope {c d : Class} (h : c.Twin d) : c.SameScope d := by
  refine ⟨h.id, ?_, ?_⟩
  · rcases h.same with rfl | ⟨⟨a, rfl⟩, b, rfl⟩ <;> rfl
  · rcases h.same with rfl | ⟨⟨a, rfl⟩, b, rfl⟩ <;> rfl

namespace ClassTable

open TypeExpr

/-! ## Closed tables -/

/-- Every class that the expression names is declared. -/
def Knows (t : ClassTable) (ty : TypeExpr) : Prop := ∀ id ∈ ty.ids, t.contains id = true

instance (t : ClassTable) (ty : TypeExpr) : Decidable (t.Knows ty) :=
  inferInstanceAs (Decidable (∀ id ∈ ty.ids, t.contains id = true))

/-- Every class that a declaration names is declared. -/
def Closed (t : ClassTable) : Prop :=
  ∀ id c, t.find? id = some c → ∀ ty ∈ c.mentions, t.Knows ty

theorem Closed.of_classes {t : ClassTable}
    (h : ∀ c ∈ t.classes, ∀ ty ∈ c.mentions, t.Knows ty) : t.Closed :=
  fun _ c hc ty hty => h c (mem_of_find? hc) ty hty

/-- A closed table with `Object`, as every table of a registry has it. -/
structure Sealed (t : ClassTable) : Prop where
  rooted : t.Rooted
  closed : t.Closed

variable {t t' s v : ClassTable}

theorem Knows.mono {ty : TypeExpr} (h : t.Knows ty) (ht : t.Within t') : t'.Knows ty :=
  fun id hid => ht.contains (h id hid)

theorem Knows.grounded {ty : TypeExpr} (h : t.Knows ty) (u : ClassTable) : Grounded u t ty :=
  fun id hid _ => h id hid

/-- What is grounded beside every larger table names declared classes only. -/
theorem knows_of_grounded {ty : TypeExpr} (h : ∀ u, t.Within u → Grounded u t ty) : t.Knows ty := by
  intro id hid
  cases hc : t.contains id with
  | true => rfl
  | false =>
    have hin := h ⟨Class.bare id .plain :: t.classes⟩ (within_cons hc) id hid
      (by simp [contains, find?, Class.bare])
    rw [hc] at hin
    exact hin

theorem Knows.rawClass {n : Nat} {ty : TypeExpr} (h : t.Knows ty) (hty : Resolved (n + 1) ty) :
    t.contains ty.rawClass = true :=
  knows_of_grounded (fun u _ => (h.grounded u).rawClass hty) _ (List.mem_singleton_self _)

theorem Sealed.contains_object (h : t.Sealed) : t.contains .object = true :=
  contains_iff.2 (h.rooted.imp fun _ hc => hc.1)

theorem Sealed.knows_object (h : t.Sealed) : t.Knows .object :=
  fun _ hid => List.mem_singleton.1 hid ▸ h.contains_object

theorem Sealed.anchored (h : t.Sealed) {u : ClassTable} (hu : t.Within u) : Anchored u t where
  within := hu
  object := h.contains_object
  mentions id c hc ty hty := (h.closed id c hc ty hty).grounded u

theorem Sealed.extend (h : t.Sealed) (ht : t.Extends t') : t'.Sealed where
  rooted := h.rooted.within ht.within
  closed id c hc ty hty := by
    have hbeside : ∀ u, t'.Within u → Grounded u t' ty := fun u hu =>
      ((h.anchored (Within.trans _ _ _ ht.within hu)).extend ht hu).mentions id c hc ty hty
    exact knows_of_grounded hbeside

/-- The arguments that a site supplies name declared classes. -/
theorem Sealed.collected (h : t.Sealed) {site : TypeExpr} (hsite : t.Knows site) {target : ClassId}
    {args : List TypeExpr} (ha : t.collectParameters site target = .ok args) :
    ∀ arg ∈ args, t.Knows arg := fun arg harg =>
  knows_of_grounded fun u hu =>
    searchParameters_grounded (h.anchored hu) (hsite.grounded u) ha arg harg

/-- So do the answers of a resolution. -/
theorem Sealed.resolved (h : t.Sealed) {n : Nat} {ty site answer : TypeExpr} (hty : t.Knows ty)
    (hsite : t.Knows site) (hr : resolveAt n ty site t = .ok answer t') : t'.Knows answer :=
  knows_of_grounded fun _ hu => resolveAt_grounded
    (h.anchored (Within.trans _ _ _ ((resolveAt_grows n ty site).ok hr) hu)) (hty.grounded _)
    (hsite.grounded _) hr hu

theorem Sealed.erased (h : t.Sealed) {n : Nat} {ty answer : TypeExpr} (hty : t.Knows ty)
    (hr : eraseAt n ty t = .ok answer t') : t'.Knows answer :=
  knows_of_grounded fun _ hu => eraseAt_grounded
    (h.anchored (Within.trans _ _ _ ((eraseAt_grows n ty).ok hr) hu)) (hty.grounded _) hr

/-! ## Tables that grew from one -/

/-- Two tables that grew from a closed one, by array classes only. -/
structure Kindred (t s v : ClassTable) : Prop where
  base : t.Sealed
  left : t.Extends s
  right : t.Extends v

namespace Kindred

theorem step (h : Kindred t s v) {s' v' : ClassTable} (hs : s.Extends s') (hv : v.Extends v') :
    Kindred t s' v' :=
  ⟨h.base, Extends.trans _ _ _ h.left hs, Extends.trans _ _ _ h.right hv⟩

theorem sealed_left (h : Kindred t s v) : s.Sealed := h.base.extend h.left

theorem sealed_right (h : Kindred t s v) : v.Sealed := h.base.extend h.right

/-- Under one id both have one class, or an array class each. -/
theorem twin (h : Kindred t s v) {id : ClassId} {c d : Class} (hc : s.find? id = some c)
    (hd : v.find? id = some d) : c.Twin d := by
  refine ⟨(find?_id hc).trans (find?_id hd).symm, ?_⟩
  rcases h.left.arrays id c hc with hct | hca
  · have hcv := h.right.within id c hct
    rw [hd] at hcv
    exact .inl (Option.some.inj hcv).symm
  · rcases h.right.arrays id d hd with hdt | hda
    · have hds := h.left.within id d hdt
      rw [hc] at hds
      exact .inl (Option.some.inj hds)
    · exact .inr ⟨hca, hda⟩

theorem lookup (h : Kindred t s v) {id : ClassId} {d : Class} (hid : s.contains id = true)
    (hd : v.lookup id = .ok d) : ∃ c, s.lookup id = .ok c ∧ c.Twin d := by
  obtain ⟨c, hc⟩ := contains_iff.1 hid
  exact ⟨c, lookup_eq_ok_iff.2 hc, h.twin hc (lookup_eq_ok_iff.1 hd)⟩

/-- Both supply the same arguments. -/
theorem collectParameters (h : Kindred t s v) {site : TypeExpr} (hsite : s.Knows site)
    {target : ClassId} {args : List TypeExpr} (hv : v.collectParameters site target = .ok args) :
    s.collectParameters site target = .ok args := by
  refine searchParameters_of_lookup (P := s.Knows) (fun ty raw inner d hty hp hd => ?_) hsite hv
  obtain ⟨c, hc, htwin⟩ := h.lookup (hty raw (mem_ids_of_raw (raw?_of_parts? hp))) hd
  refine ⟨c, hc, ⟨htwin.id.symm, htwin.scope.typeParams.symm, htwin.scope.supertypes.symm⟩,
    fun sup hsup => knows_of_grounded fun u hu => ?_⟩
  rw [← htwin.scope.supertypes] at hsup
  exact Grounded.substitute ((h.sealed_left.closed raw c (lookup_eq_ok_iff.1 hc) sup
    (Class.mentions_supertype hsup)).grounded u) (grounded_args (hty.grounded u) hp)

/-! ## Resolution -/

end Kindred

/-- Whatever the computation answers from `v`, it answers from `s`. -/
def Echoes (s v : ClassTable) (x : TableM TypeExpr) : Prop :=
  Follows (fun _ => True) s v x x fun p q _ _ => p = q

theorem arrayOf_echoes {component : TypeExpr} (hc : s.Knows component) :
    Follows (fun _ => True) s v (arrayOf component) (arrayOf component) fun i j _ _ => i = j := by
  intro j v' hj _ _
  obtain ⟨rfl, -, -⟩ := arrayOf_eq_ok hj
  exact ⟨arrayId component, s.intern (arrayClass component),
    arrayOf_of_found fun raw hr => contains_iff.1 (hc raw (mem_ids_of_raw hr)), rfl⟩

/-- The array class of a component that is computed first. -/
theorem arrayType_echoes {x : TableM TypeExpr} (hx : Echoes s v x)
    (hknows : ∀ c s', x s = .ok c s' → s'.Knows c) :
    Echoes s v (do return .named (← arrayOf (← x))) := by
  refine Follows.bind hx (fun c d s' v' hc _ _ _ heq => ?_) (fun _ _ _ => trivial)
    fun _ _ _ => trivial
  subst heq
  refine Follows.bind (arrayOf_echoes (hknows c s' hc)) (fun i j _ _ _ _ _ _ hij => ?_)
    (fun _ _ _ => trivial) fun _ _ _ => trivial
  exact Follows.pure (congrArg TypeExpr.named hij)

theorem Knows.bound {lower upper : List TypeExpr} (h : s.Knows (.wildcard lower upper))
    {bound : TypeExpr} (hb : bound ∈ lower ++ upper) : s.Knows bound :=
  knows_of_grounded fun u _ => (h.grounded u).bound hb

theorem Sealed.bound (h : s.Sealed) {owner : ClassId} {c : Class} (hc : s.lookup owner = .ok c)
    {i : Nat} {bound : TypeExpr} (hb : c.typeParams[i]?.bind (·.bounds.head?) = some bound) :
    s.Knows bound :=
  knows_of_grounded fun _ hu => bound_grounded (h.anchored hu) hc hb

namespace Kindred

theorem eraseAt (h : Kindred t s v) {n : Nat} {ty : TypeExpr} (hty : s.Knows ty) :
    Echoes s v (ClassTable.eraseAt n ty) := by
  induction n generalizing ty with
  | zero => intro b v' hb; cases hb
  | succ n ih =>
    cases ty with
    | named id => exact Follows.pure rfl
    | apply raw args => exact Follows.pure rfl
    | wildcard lower upper =>
      cases upper with
      | nil => exact Follows.pure rfl
      | cons bound rest => exact ih (hty.bound (by simp))
    | var owner name =>
      unfold Echoes
      simp only [ClassTable.eraseAt]
      refine Follows.get ?_
      refine Follows.ofExcept fun d hd => ?_
      obtain ⟨c, hc, htwin⟩ := h.lookup (hty owner (by simp [ids])) hd
      refine ⟨c, hc, ?_⟩
      rw [← htwin.scope.typeParamIndex?, ← htwin.scope.typeParams]
      cases hb : (c.typeParamIndex? name).bind fun i => c.typeParams[i]?.bind (·.bounds.head?) with
      | none => exact Follows.pure rfl
      | some bound =>
        obtain ⟨i, -, hi⟩ := Option.bind_eq_some_iff.1 hb
        exact ih (h.sealed_left.bound hc hi)
    | array component =>
      have hcomponent : s.Knows component := hty
      exact arrayType_echoes (ih hcomponent) fun _ _ hc => h.sealed_left.erased hcomponent hc

theorem eraseBound (h : Kindred t s v) {n index : Nat} {owner : ClassId} {c d : Class}
    (hc : s.lookup owner = .ok c) (htwin : c.Twin d) :
    Follows (fun _ => True) s v (ClassTable.eraseBound n c index) (ClassTable.eraseBound n d index)
      fun p q _ _ => p = q := by
  rw [← eraseBound_congr htwin.scope]
  unfold ClassTable.eraseBound
  cases hb : c.typeParams[index]?.bind (·.bounds.head?) with
  | some bound => exact h.eraseAt (h.sealed_left.bound hc hb)
  | none => exact Follows.pure rfl

/-- A loop over expressions that name declared classes. -/
theorem mapM (h : Kindred t s v) {f : TypeExpr → TableM TypeExpr} {args : List TypeExpr}
    (hf : ∀ arg ∈ args, ∀ s' v', Kindred t s' v' → s.Within s' → Echoes s' v' (f arg))
    (hext : ∀ arg, Moves Extends (f arg)) :
    Follows (fun _ => True) s v (args.mapM f) (args.mapM f) fun ps qs _ _ => ps = qs := by
  have loop : Follows (fun _ => True) s v (args.mapM f) (args.mapM f) fun ps qs s' v' =>
      ps = qs ∧ Kindred t s' v' ∧ s.Within s' := by
    refine Follows.mapM ?_ (fun _ _ _ => trivial) (fun _ _ _ => trivial) ⟨rfl, h, Within.refl s⟩
    rintro arg harg ps _ s' v' ⟨rfl, hkin, hwithin⟩ q v'' hq _ _
    obtain ⟨p, s'', hp, rfl⟩ := hf arg harg s' v' hkin hwithin q v'' hq trivial trivial
    have hs := (hext arg).ok hp
    exact ⟨p, s'', hp, rfl, hkin.step hs ((hext arg).ok hq), Within.trans _ _ _ hwithin hs.within⟩
  exact loop.mono fun _ _ _ _ hps => hps.1

theorem resolveAt (h : Kindred t s v) {n : Nat} {ty site : TypeExpr} (hty : s.Knows ty)
    (hsite : s.Knows site) : Echoes s v (ClassTable.resolveAt n ty site) := by
  induction n generalizing ty s v with
  | zero => intro b v' hb; cases hb
  | succ n ih =>
    cases ty with
    | named id => exact Follows.pure rfl
    | apply raw args =>
      have hargs : ∀ arg ∈ args, s.Knows arg := fun arg harg =>
        knows_of_grounded fun u _ => grounded_args (hty.grounded u) rfl arg harg
      have loop := h.mapM (f := fun arg => ClassTable.resolveAt n arg site)
        (fun arg harg s' v' hkin hw => ih hkin ((hargs arg harg).mono hw) (hsite.mono hw))
        fun arg => resolveAt_extends n arg site
      refine Follows.bind loop (fun ps qs _ _ _ _ _ _ hps => ?_) (fun _ _ _ => trivial)
        fun _ _ _ => trivial
      exact Follows.pure (congrArg (TypeExpr.apply raw) hps)
    | wildcard lower upper =>
      unfold Echoes
      simp only [ClassTable.resolveAt]
      cases hb : lower.head?.or upper.head? with
      | none => exact Follows.pure rfl
      | some bound => exact ih h (hty.bound (mem_bounds hb)) hsite
    | var owner name =>
      unfold Echoes
      simp only [ClassTable.resolveAt]
      refine Follows.get (Follows.ofExcept fun d hd => ?_)
      obtain ⟨c, hc, htwin⟩ := h.lookup (hty owner (by simp [ids])) hd
      refine ⟨c, hc, ?_⟩
      rw [← htwin.scope.typeParamIndex?]
      cases hi : c.typeParamIndex? name with
      | none => intro b v' hb; cases hb
      | some index =>
        refine Follows.ofExcept fun params hp => ?_
        have hp' := h.collectParameters hsite hp
        refine ⟨params, hp', ?_⟩
        cases ha : params[index]? with
        | none => exact h.eraseBound hc htwin
        | some arg =>
          by_cases hself : arg = .var owner name
          · simp only [hself, if_true]
            exact h.eraseBound hc htwin
          · simp only [hself, if_false]
            exact ih h (h.sealed_left.collected hsite hp' arg (List.mem_of_getElem? ha)) hsite
    | array component =>
      have hcomponent : s.Knows component := hty
      exact arrayType_echoes (ih h hcomponent hsite) fun _ _ hc =>
        h.sealed_left.resolved hcomponent hsite hc

/-- What the one resolves, the other resolves to the same type. -/
theorem resolve (h : Kindred t s v) {ty site answer : TypeExpr} {v' : ClassTable} (hty : s.Knows ty)
    (hsite : s.Knows site) (hv : ClassTable.resolve ty site v = .ok answer v') :
    ∃ s', ClassTable.resolve ty site s = .ok answer s' ∧ Kindred t s' v' := by
  obtain ⟨p, s', hp, rfl⟩ := h.resolveAt hty hsite answer v' hv trivial trivial
  exact ⟨s', hp, h.step ((resolveAt_extends _ ty site).ok hp) ((resolveAt_extends _ ty site).ok hv)⟩

end Kindred

/-! ## Assignability -/

/-- An array class is assigned to itself and to `Object` only. -/
theorem Sealed.isAssignable_array (h : t.Sealed) {id : ClassId} {a : TypeExpr}
    (hc : t.find? id = some (arrayClass a)) (target : ClassId) :
    t.isAssignable target id = (target = id || target = .object) := by
  obtain ⟨o, ho, hroot⟩ := h.rooted
  have hid : (arrayClass a).id = id := find?_id hc
  have hoid : o.id = .object := find?_id ho
  have hne : id ≠ .object := by
    rintro rfl
    rw [hc] at ho
    cases ho
    cases hroot
  have hfirst : t.supertypes id = t.visit [.object] [arrayClass a] :=
    visit_found rfl (lookup_eq_ok_iff.2 hc)
  have hstack : [ClassId.object].dropWhile (isVisited [arrayClass a]) = [.object] := by
    simp [isVisited, hid, hne]
  have hall : t.supertypes id = .ok [arrayClass a, o] := by
    rw [hfirst, visit_found hstack (lookup_eq_ok_iff.2 ho), hroot]
    exact visit_nil rfl
  unfold isAssignable
  by_cases htarget : target = id
  · simp [htarget]
  · have hstrict : (arrayClass a).isStrictPrimitive = false := rfl
    by_cases hobject : target = .object
    · simp [hc, hstrict, hobject]
    · simp [hc, hstrict, htarget, hobject, hasSupertype, hall, hid, hoid, Ne.symm htarget,
        Ne.symm hobject]

/-- Both tables assign a class that both know to the same classes. -/
theorem Kindred.isAssignable (h : Kindred t s v) {source : ClassId} (hs : s.contains source = true)
    (hv : v.contains source = true) (target : ClassId) :
    s.isAssignable target source = v.isAssignable target source := by
  obtain ⟨c, hc⟩ := contains_iff.1 hs
  obtain ⟨d, hd⟩ := contains_iff.1 hv
  rcases h.left.arrays source c hc with hct | ⟨a, rfl⟩
  · have hin : t.contains source = true := contains_iff.2 ⟨c, hct⟩
    rw [(h.base.anchored h.left.within).isAssignable (grounded_of_contains hin),
      (h.base.anchored h.right.within).isAssignable (grounded_of_contains hin)]
  · rcases (h.twin hc hd).same with rfl | ⟨-, b, rfl⟩
    · rw [h.sealed_left.isAssignable_array hc, h.sealed_right.isAssignable_array hd]
    · rw [h.sealed_left.isAssignable_array hc, h.sealed_right.isAssignable_array hd]

end ClassTable
end Introspect
