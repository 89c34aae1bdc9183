import Introspect.Proofs.Models.Comparison

/-!
The scan of a class in the two registries: whatever properties the later scan collects, the fresh one
collects as well, with the same names, flags and accesses, and with value models of the same keys.

* `Property.outline`: what is compared of a property.
* `scan_follows`: the properties of a class.
-/

namespace Introspect

open Registry ClassTable TypeExpr

/-- A property, with the key of its value model in the model's place. -/
structure Outline where
  name : String
  isTransient : Bool
  access : Access
  key : ModelKey

def Property.outline (p : Property) : Outline := ⟨p.name, p.isTransient, p.access, p.model.key⟩

/-- Views of properties by which the names are known stay equal when a property of one view is inserted. -/
theorem insertProperty_map {β : Type} {g : Property → β} (hg : ∀ p q, g p = g q → p.name = q.name)
    {p q : Property} {ps qs : List Property} (h : g p = g q) (hs : ps.map g = qs.map g) :
    (insertProperty p ps).map g = (insertProperty q qs).map g := by
  have hname : p.name = q.name := hg p q h
  induction ps generalizing qs with
  | nil =>
    cases qs with
    | nil => simp [insertProperty, h]
    | cons b bs => cases hs
  | cons a as ih =>
    cases qs with
    | nil => cases hs
    | cons b bs =>
      obtain ⟨hab, hrest⟩ := List.cons.inj hs
      have hnames : a.name = b.name := hg a b hab
      unfold insertProperty
      rw [hname, hnames]
      split
      · simp [h, hab, hrest]
      · split
        · simp [hab, hrest]
        · simp [hab, ih hrest]

theorem hasProperty_map {β : Type} {g : Property → β} (name : β → String) (hg : ∀ p, p.name = name (g p))
    {ps qs : List Property} (hs : ps.map g = qs.map g) (x : String) :
    hasProperty ps x = hasProperty qs x := by
  have hmap : ∀ ps : List Property, hasProperty ps x = (ps.map g).any (name · = x) := by
    intro ps
    rw [List.any_map]
    simp only [hasProperty, hg]
    rfl
  rw [hmap, hmap, hs]

theorem insertProperty_outline {p q : Property} {ps qs : List Property}
    (h : p.outline = q.outline) (hs : ps.map Property.outline = qs.map Property.outline) :
    (insertProperty p ps).map Property.outline = (insertProperty q qs).map Property.outline :=
  insertProperty_map (fun _ _ h => congrArg Outline.name h) h hs

theorem hasProperty_outline {ps qs : List Property}
    (hs : ps.map Property.outline = qs.map Property.outline) (name : String) :
    hasProperty ps name = hasProperty qs name :=
  hasProperty_map Outline.name (fun _ => rfl) hs name

/-! ## Bounds -/

namespace Scan

variable {u : ClassTable} (S : Scan)

theorem addAccessorPair_inward (types : List Class) (ps : List Property) (pair : AccessorPair) :
    Inward (Bounded u) (S.addAccessorPair types ps pair) := by
  unfold addAccessorPair
  split
  · split
    · refine Inward.bind (resolve_inward _ _) fun v => Inward.bind (resolve_inward _ _) fun w => ?_
      refine Inward.bind Inward.get fun r => Inward.ite ?_ ?_
      · exact Inward.bind (modelFor_inward v) fun _ => Inward.pure _
      · exact Inward.bind (log_inward _ _) fun _ => Inward.pure _
    · exact Inward.pure _
  · exact Inward.bind (log_inward _ _) fun _ => Inward.pure _

theorem holderProperty_inward (f : Field) (fieldType : TypeExpr) :
    Inward (Bounded u) (holderProperty f fieldType) := by
  unfold holderProperty
  refine Inward.bind Inward.get fun r => Inward.bind (Inward.ofExcept _) fun args => ?_
  simp only
  split
  · exact Inward.bind (resolve_inward _ _) fun v =>
      Inward.bind (modelFor_inward v) fun _ => Inward.pure _
  · exact Inward.bind (Inward.pure _) fun v =>
      Inward.bind (modelFor_inward v) fun _ => Inward.pure _

theorem fieldProperty?_inward (f : Field) : Inward (Bounded u) (S.fieldProperty? f) := by
  unfold fieldProperty?
  refine Inward.bind (resolve_inward _ _) fun v => Inward.bind Inward.get fun r => Inward.ite ?_ ?_
  · exact Inward.bind (holderProperty_inward f v) fun _ => Inward.pure _
  · refine Inward.bind (modelFor_inward v) fun m => Inward.ite ?_ (Inward.pure _)
    exact Inward.bind (log_inward _ _) fun _ => Inward.pure _

theorem addField_inward (ps : List Property) (f : Field) :
    Inward (Bounded u) (S.addField ps f) := by
  unfold addField
  refine Inward.ite (Inward.pure _) (Inward.bind (fieldProperty?_inward S f) fun p? => ?_)
  cases p? with
  | none => exact Inward.pure _
  | some p => exact Inward.pure _

theorem addFields_inward (ps : List Property) : Inward (Bounded u) (S.addFields ps) := by
  unfold addFields
  refine Inward.bind Inward.get fun r => ?_
  refine Inward.bind (Inward.foldlM (addField_inward S) _ _) fun _ => ?_
  exact Inward.bind (Inward.discard (Inward.ofExcept _)) fun _ => Inward.pure _

theorem runVia_inward (arrange : List AccessorPair → List AccessorPair) :
    Inward (Bounded u) (S.runVia arrange) := by
  unfold runVia addAccessorPairs
  refine Inward.bind Inward.get fun r => Inward.bind (Inward.ofExcept _) fun types => ?_
  refine Inward.bind (Inward.foldlM (addAccessorPair_inward S types) _ _) fun ps => ?_
  refine Inward.bind (addFields_inward S ps) fun ps' => Inward.ite ?_ (Inward.pure _)
  exact Inward.bind (log_inward _ _) fun _ => Inward.pure _

theorem run_inward : Inward (Bounded u) S.run :=
  Inward.bind Inward.get fun r => S.runVia_inward r.order.arrange

end Scan

theorem scan_inward {u : ClassTable} (owner : Class) (site : TypeExpr) :
    Inward (Bounded u) (scan owner site) :=
  Inward.bind Inward.get fun _ => Scan.run_inward _

/-! ## Accessor pairs -/

section Following

variable {u : ClassTable} {a b s t : Registry}

/-- Properties with the same outlines, all of cached value models. -/
structure Alike (u : ClassTable) (a b s t : Registry) (ps qs : List Property) (s' t' : Registry) :
    Prop where
  outlines : ps.map Property.outline = qs.map Property.outline
  left : AllCached ps s'
  right : AllCached qs t'
  next : Next u a b s t s' t'

theorem Alike.later {ps qs : List Property} {s' t' s'' t'' : Registry}
    (h : Alike u a b s t ps qs s' t') (hn : Next u a b s' t' s'' t'') :
    Alike u a b s t ps qs s'' t'' :=
  ⟨h.outlines, h.left.grown hn.left, h.right.grown hn.right, h.next.trans hn⟩

/-- What holds from here on, and what was before. -/
theorem Alike.restart {ps qs : List Property} {s' t' : Registry} (h : Alike u a b s t ps qs s' t') :
    Alike u a b s' t' ps qs s' t' :=
  ⟨h.outlines, h.left, h.right, Next.refl h.next.pair⟩

theorem Alike.after {ps qs : List Property} {s' t' s'' t'' : Registry}
    (h : Alike u a b s' t' ps qs s'' t'') (hn : Next u a b s t s' t') :
    Alike u a b s t ps qs s'' t'' :=
  ⟨h.outlines, h.left, h.right, hn.trans h.next⟩

theorem Alike.insert {ps qs : List Property} {p q : Property} {s' t' : Registry}
    (h : Alike u a b s t ps qs s' t') (ho : p.outline = q.outline) (hp : Cached p.model s')
    (hq : Cached q.model t') :
    Alike u a b s t (insertProperty p ps) (insertProperty q qs) s' t' :=
  ⟨insertProperty_outline ho h.outlines, h.left.insert hp, h.right.insert hq, h.next⟩

/-- The lines of the journal are not compared. -/
theorem Alike.logged {ps qs : List Property} {s' t' : Registry} {level level' : LogLevel}
    (h : Alike u a b s t ps qs s' t') (text text' : String) :
    Follows (Bounded u) s' t' (do log level text; return ps) (do log level' text'; return qs)
      (Alike u a b s t) := by
  refine Follows.bind (log_follows h.next.pair level level' text text')
    (fun _ _ s'' t'' _ _ _ _ hn => ?_) (fun _ => Inward.pure _) fun _ => Inward.pure _
  exact Follows.pure (h.later hn)

/-- A property is added whose value model is found in both registries. -/
theorem Alike.add (hb : Leftover a b) {ps qs : List Property} {s' t' : Registry}
    (h : Alike u a b s t ps qs s' t') {v : TypeExpr} (hres : Resolved (depthLimit + 1) v)
    (hv : Grounded u s'.classes v) (name : String) (isTransient : Bool) (access : Access) :
    Follows (Bounded u) s' t'
      (do let model ← modelFor v; return insertProperty ⟨model, name, isTransient, access⟩ ps)
      (do let model ← modelFor v; return insertProperty ⟨model, name, isTransient, access⟩ qs)
      (Alike u a b s t) := by
  refine Follows.bind (modelFor_follows hb h.next.pair hres hv)
    (fun m n s'' t'' _ _ _ _ htwins => ?_) (fun _ => Inward.pure _) fun _ => Inward.pure _
  refine Follows.pure ((h.later htwins.next).insert ?_ htwins.left htwins.right)
  simp [Property.outline, htwins.key]

variable {owner : Class} {config : Config} {site site' : TypeExpr}

theorem addAccessorPair_follows (hb : Leftover a b) {types : List Class} {ps qs : List Property}
    {pair : AccessorPair} (hps : Alike u a b s t ps qs s t) (hs : Scope u s t site site')
    (hget : ∀ m ty, pair.getter = some m → m.returns = some ty → Both u s t ty)
    (hset : ∀ m ty, pair.setter = some m → ty ∈ m.params → Both u s t ty) :
    Follows (Bounded u) s t (Scan.addAccessorPair ⟨owner, site, config⟩ types ps pair)
      (Scan.addAccessorPair ⟨owner, site', config⟩ types qs pair) (Alike u a b s t) := by
  unfold Scan.addAccessorPair
  cases hg : pair.getter with
  | none => exact hps.logged _ _
  | some getter =>
    cases hset' : pair.setter with
    | none => exact hps.logged _ _
    | some setter =>
      simp only
      cases hr : getter.returns with
      | none => exact Follows.pure hps
      | some returns =>
        cases hp : setter.params.head? with
        | none => exact Follows.pure hps
        | some param =>
          have hreturns := hget getter returns hg hr
          have hparam := hset setter param hset' (List.mem_of_mem_head? hp)
          simp only
          refine Follows.bind (resolve_follows hps.next.pair hs.parts hreturns.fresh hs.fresh)
            ?next ?left ?right
          case left | right =>
            refine fun v => Inward.bind (resolve_inward _ _) fun w => ?_
            refine Inward.bind Inward.get fun r => Inward.ite ?_ ?_
            · exact Inward.bind (modelFor_inward v) fun _ => Inward.pure _
            · exact Inward.bind (log_inward _ _) fun _ => Inward.pure _
          case next =>
            rintro v _ s₁ t₁ - hy - ht₁ ⟨rfl, hn₁, hres, hv⟩
            have hv' := resolve_grounded hps.next.pair.later hreturns.later hs.later hy ht₁
            have hs₁ := hs.next hn₁
            refine Follows.bind (resolve_follows hn₁.pair hs₁.parts (hparam.next hn₁).fresh hs₁.fresh)
              ?next ?left ?right
            case left | right =>
              refine fun w => Inward.bind Inward.get fun r => Inward.ite ?_ ?_
              · exact Inward.bind (modelFor_inward v) fun _ => Inward.pure _
              · exact Inward.bind (log_inward _ _) fun _ => Inward.pure _
            case next =>
              rintro w _ s₂ t₂ - - - - ⟨rfl, hn₂, -, -⟩
              have hn := hn₁.trans hn₂
              have hvs := hv.mono hn₂.left.within
              refine Follows.get ?_
              have hsame := isAssignable_agrees hn.pair.fresh.anchored hn.pair.later.anchored
                (hvs.rawClass hres) ((hv'.mono hn₂.right.within).rawClass hres)
                w.rawClass
              have hps₂ := hps.later hn
              rw [hsame]
              exact Follows.ite (hps₂.add hb hres hvs _ _ _) (hps₂.logged _ _)

/-- The pairs of accessors that the classes of a hierarchy declare. -/
theorem accessorPairs_declared {types : List Class} {pair : AccessorPair} {m : Method}
    (hpair : pair ∈ accessorPairs (types.flatMap (·.accessors config)))
    (hm : pair.getter = some m ∨ pair.setter = some m) : ∃ c ∈ types, m ∈ c.methods := by
  have declared : ∀ {x : Accessor}, x ∈ types.flatMap (·.accessors config) →
      ∃ c ∈ types, x.method ∈ c.methods := by
    intro x hx
    obtain ⟨c, hc, hx⟩ := List.mem_flatMap.1 hx
    refine ⟨c, hc, ?_⟩
    unfold Class.accessors at hx
    split at hx
    · obtain ⟨m', hm', hx⟩ := List.mem_filterMap.1 hx
      split at hx
      · obtain ⟨p, -, rfl⟩ := Option.map_eq_some_iff.1 hx
        exact hm'
      · cases hx
    · cases hx
  have found : ∀ {role : AccessorRole} {name : String},
      firstAccessor? (types.flatMap (·.accessors config)) role name = some m →
        ∃ c ∈ types, m ∈ c.methods := by
    intro role name h
    obtain ⟨x, hx, rfl⟩ := Option.map_eq_some_iff.1 h
    exact declared (List.mem_of_find?_eq_some hx)
  obtain ⟨name, -, rfl⟩ := List.mem_map.1 hpair
  rcases hm with hm | hm
  · exact found hm
  · exact found hm

theorem addAccessorPairs_follows (hb : Leftover a b) (h : Pair u a b s t)
    (hs : Scope u s t site site') {types : List Class} (htypes : Known s t types) {pairs : List AccessorPair}
    (hpairs : ∀ pair ∈ pairs, pair ∈ accessorPairs (types.flatMap (·.accessors config))) :
    Follows (Bounded u) s t (Scan.addAccessorPairs ⟨owner, site, config⟩ types pairs)
      (Scan.addAccessorPairs ⟨owner, site', config⟩ types pairs) (Alike u a b s t) := by
  unfold Scan.addAccessorPairs
  refine Follows.foldlM (fun pair hpair ps qs s' t' hps => ?_)
    (fun ps pair => Scan.addAccessorPair_inward _ types ps pair)
    (fun ps pair => Scan.addAccessorPair_inward _ types ps pair)
    ⟨rfl, fun p hp => (by cases hp), fun p hp => (by cases hp), Next.refl h⟩
  have hknown := htypes.next hps.next
  refine (addAccessorPair_follows hb hps.restart (hs.next hps.next) (fun m ty hm hty => ?_)
    fun m ty hm hty => ?_).mono fun _ _ _ _ h' => h'.after hps.next
  · obtain ⟨c, hc, hmem⟩ := accessorPairs_declared (hpairs pair hpair) (.inl hm)
    exact hps.next.pair.mentions (hknown c hc).1 (hknown c hc).2 (Class.mentions_result hmem hty)
  · obtain ⟨c, hc, hmem⟩ := accessorPairs_declared (hpairs pair hpair) (.inr hm)
    exact hps.next.pair.mentions (hknown c hc).1 (hknown c hc).2 (Class.mentions_param hmem hty)

/-! ## Fields -/

/-- Two properties with the same outline, of cached value models. -/
structure Like (u : ClassTable) (a b s t : Registry) (p q : Property) (s' t' : Registry) : Prop where
  outline : p.outline = q.outline
  left : Cached p.model s'
  right : Cached q.model t'
  next : Next u a b s t s' t'

theorem holderProperty_follows (hb : Leftover a b) (h : Pair u a b s t) {f : Field}
    {fieldType : TypeExpr} (hg : Grounded u s.classes fieldType) :
    Follows (Bounded u) s t (Scan.holderProperty f fieldType) (Scan.holderProperty f fieldType)
      (Like u a b s t) := by
  have rest : ∀ {s' t' : Registry} {v : TypeExpr}, Next u a b s t s' t' →
      Resolved (depthLimit + 1) v → Grounded u s'.classes v →
      Follows (Bounded u) s' t'
        (do return (⟨← modelFor v, f.name, f.isTransient, .holder f.name⟩ : Property))
        (do return (⟨← modelFor v, f.name, f.isTransient, .holder f.name⟩ : Property))
        (Like u a b s t) := by
    intro s' t' v hn hres hv
    refine Follows.bind (modelFor_follows hb hn.pair hres hv) (fun m n s'' t'' _ _ _ _ htwins => ?_)
      (fun _ => Inward.pure _) fun _ => Inward.pure _
    exact Follows.pure ⟨by simp [Property.outline, htwins.key], htwins.left, htwins.right,
      hn.trans htwins.next⟩
  unfold Scan.holderProperty
  refine Follows.get (Follows.ofExcept fun args hargs => ⟨args, ?_, ?_⟩)
  · exact h.complete.collectParameters hg (h.later.anchored.within.collectParameters hargs)
  · have hgrounded := searchParameters_grounded h.fresh.anchored hg
      (h.complete.collectParameters hg (h.later.anchored.within.collectParameters hargs))
    cases ha : args.head? with
    | none => exact rest (Next.refl h) (Resolved.named depthLimit .object) h.complete.grounded_object
    | some arg =>
      have hin : arg ∈ args := List.mem_of_mem_head? ha
      refine Follows.bind (resolve_follows h rfl (hgrounded arg hin) hg)
        (fun v w s' t' _ _ _ _ hvw => ?_)
        (fun v => Inward.bind (modelFor_inward v) fun _ => Inward.pure _)
        fun v => Inward.bind (modelFor_inward v) fun _ => Inward.pure _
      obtain ⟨rfl, hn, hres, hv⟩ := hvw
      exact rest hn hres hv

/-- Both scans find a property for the field, or neither does. -/
def LikeOrNone (u : ClassTable) (a b s t : Registry) (p? q? : Option Property) (s' t' : Registry) :
    Prop :=
  (p? = none ∧ q? = none ∧ Next u a b s t s' t') ∨
    ∃ p q, p? = some p ∧ q? = some q ∧ Like u a b s t p q s' t'

theorem fieldProperty?_follows (hb : Leftover a b) (h : Pair u a b s t)
    (hs : Scope u s t site site') {f : Field} (hf : Both u s t f.type) :
    Follows (Bounded u) s t (Scan.fieldProperty? ⟨owner, site, config⟩ f)
      (Scan.fieldProperty? ⟨owner, site', config⟩ f) (LikeOrNone u a b s t) := by
  unfold Scan.fieldProperty?
  refine Follows.bind (resolve_follows h hs.parts hf.fresh hs.fresh) ?next ?left ?right
  case left | right =>
    refine fun v => Inward.bind Inward.get fun r => Inward.ite ?_ ?_
    · exact Inward.bind (Scan.holderProperty_inward f v) fun _ => Inward.pure _
    · refine Inward.bind (modelFor_inward v) fun m => Inward.ite ?_ (Inward.pure _)
      exact Inward.bind (log_inward _ _) fun _ => Inward.pure _
  case next =>
    rintro v _ s₁ t₁ - hy - ht₁ ⟨rfl, hn, hres, hv⟩
    have hv' := resolve_grounded h.later hf.later hs.later hy ht₁
    refine Follows.get ?_
    rw [isAssignable_agrees hn.pair.fresh.anchored hn.pair.later.anchored (hv.rawClass hres)
      (hv'.rawClass hres)]
    refine Follows.ite ?_ ?_
    · refine Follows.bind (holderProperty_follows hb hn.pair hv)
        (fun p q s₂ t₂ _ _ _ _ hlike => ?_) (fun _ => Inward.pure _) fun _ => Inward.pure _
      exact Follows.pure (.inr ⟨p, q, rfl, rfl, hlike.outline, hlike.left, hlike.right,
        hn.trans hlike.next⟩)
    · refine Follows.bind (modelFor_follows hb hn.pair hres hv) ?next ?left ?right
      case left | right =>
        refine fun m => Inward.ite ?_ (Inward.pure _)
        exact Inward.bind (log_inward _ _) fun _ => Inward.pure _
      case next =>
        rintro m n s₂ t₂ - - - - htwins
        have hn₂ := hn.trans htwins.next
        rw [htwins.isAtomic hb]
        refine Follows.ite ?_ ?_
        · refine Follows.bind (log_follows htwins.next.pair _ _ _ _)
            (fun _ _ s₃ t₃ _ _ _ _ hn₃ => ?_) (fun _ => Inward.pure _) fun _ => Inward.pure _
          exact Follows.pure (.inl ⟨rfl, rfl, hn₂.trans hn₃⟩)
        · refine Follows.pure (.inr ⟨_, _, rfl, rfl, ?_, htwins.left, htwins.right, hn₂⟩)
          simp [Property.outline, htwins.key, Scan.slotAccess]

theorem addField_follows (hb : Leftover a b) {ps qs : List Property}
    (hps : Alike u a b s t ps qs s t) (hs : Scope u s t site site') {f : Field}
    (hf : Both u s t f.type) :
    Follows (Bounded u) s t (Scan.addField ⟨owner, site, config⟩ ps f)
      (Scan.addField ⟨owner, site', config⟩ qs f) (Alike u a b s t) := by
  unfold Scan.addField
  rw [hasProperty_outline hps.outlines]
  refine Follows.ite (Follows.pure hps) ?_
  · refine Follows.bind (fieldProperty?_follows hb hps.next.pair hs hf)
      (fun p? q? s' t' _ _ _ _ hlike => ?_) (fun p? => ?_) fun q? => ?_
    · rcases hlike with ⟨rfl, rfl, hn⟩ | ⟨p, q, rfl, rfl, hlike⟩
      · exact Follows.pure (hps.later hn)
      · exact Follows.pure ((hps.later hlike.next).insert hlike.outline hlike.left hlike.right)
    · cases p? with
      | none => exact Inward.pure _
      | some p => exact Inward.pure _
    · cases q? with
      | none => exact Inward.pure _
      | some q => exact Inward.pure _

theorem discard_ofExcept_eq_ok {α : Type} {x : Except Error α} {r r' : Registry}
    (h : (discard (ofExcept x) : RegistryM Unit) r = .ok () r') : ∃ c, x = .ok c := by
  cases x with
  | ok c => exact ⟨c, rfl⟩
  | error e => cases h

/-- The chain whose fields were collected ends. -/
theorem addFields_chain {S : Scan} {ps qs : List Property} {r r' : Registry}
    (h : S.addFields ps r = .ok qs r') : ∃ cs, r.classes.superclassChain S.owner = .ok cs := by
  unfold Scan.addFields at h
  obtain ⟨r₁, r₂, hget, h₁⟩ := bind_eq_ok_iff.1 h
  cases hget
  obtain ⟨qs', r₃, -, h₂⟩ := bind_eq_ok_iff.1 h₁
  obtain ⟨⟨⟩, r₄, hdiscard, -⟩ := bind_eq_ok_iff.1 h₂
  exact discard_ofExcept_eq_ok hdiscard

/-- The fields of classes that both registries know. -/
theorem addEach_follows (hb : Leftover a b) {ps qs : List Property}
    (hps : Alike u a b s t ps qs s t) (hs : Scope u s t site site') {cs : List Class}
    (hcs : Known s t cs) :
    Follows (Bounded u) s t
      ((cs.flatMap Class.instanceFields).foldlM (Scan.addField ⟨owner, site, config⟩) ps)
      ((cs.flatMap Class.instanceFields).foldlM (Scan.addField ⟨owner, site', config⟩) qs)
      (Alike u a b s t) := by
  refine Follows.foldlM (fun f hf ps qs s' t' hps' => ?_) (Scan.addField_inward _)
    (Scan.addField_inward _) hps
  obtain ⟨c, hc, hf⟩ := List.mem_flatMap.1 hf
  have hknown := hcs.next hps'.next c hc
  have hboth : Both u s' t' f.type :=
    hps'.next.pair.mentions hknown.1 hknown.2 (Class.mentions_field (List.mem_filter.1 hf).1)
  exact (addField_follows hb hps'.restart (hs.next hps'.next) hboth).mono fun _ _ _ _ h =>
    h.after hps'.next

theorem addFields_follows (hb : Leftover a b) {ps qs : List Property}
    (hps : Alike u a b s t ps qs s t) (hs : Scope u s t site site')
    (howner : s.classes.find? owner.id = some owner ∧ t.classes.find? owner.id = some owner) :
    Follows (Bounded u) s t (Scan.addFields ⟨owner, site, config⟩ ps)
      (Scan.addFields ⟨owner, site', config⟩ qs) (Alike u a b s t) := by
  intro qs' t' hqs' ht' hs'
  -- the later scan has found the end of the chain, and so does the fresh one
  obtain ⟨cs, hcs⟩ := addFields_chain hqs'
  have hcs' : s.classes.superclassChain owner = .ok cs :=
    hps.next.pair.complete.superclassChain hps.next.pair.later.anchored.within howner.1 hcs
  have hchain : s.classes.chainWithin (s.classes.size + 1) owner = cs :=
    chainWithin_eq_of_chainFrom hcs'
  have hchain' : t.classes.chainWithin (t.classes.size + 1) owner = cs :=
    chainWithin_eq_of_chainFrom hcs
  have hknown : Known s t cs := fun c hc =>
    ⟨found_of_chainFrom howner.1 hcs' c hc, found_of_chainFrom howner.2 hcs c hc⟩
  have hfollow : Follows (Bounded u) s t (Scan.addFields ⟨owner, site, config⟩ ps)
      (Scan.addFields ⟨owner, site', config⟩ qs) (Alike u a b s t) := by
    unfold Scan.addFields
    refine Follows.get ?_
    simp only [hchain, hchain']
    refine Follows.bind (addEach_follows hb hps hs hknown) (fun ps' qs'' s₁ t₁ _ _ _ _ hps' => ?_)
      (fun _ => Inward.bind (Inward.discard (Inward.ofExcept _)) fun _ => Inward.pure _)
      fun _ => Inward.bind (Inward.discard (Inward.ofExcept _)) fun _ => Inward.pure _
    rw [hcs, hcs']
    exact Follows.congr (Follows.pure hps') rfl rfl
  exact hfollow qs' t' hqs' ht' hs'

theorem run_follows (hb : Leftover a b) (h : Pair u a b s t) (hs : Scope u s t site site')
    (howner : s.classes.find? owner.id = some owner ∧ t.classes.find? owner.id = some owner) :
    Follows (Bounded u) s t (Scan.run ⟨owner, site, config⟩) (Scan.run ⟨owner, site', config⟩)
      (Alike u a b s t) := by
  unfold Scan.run
  refine Follows.get ?_
  rw [h.order hb]
  unfold Scan.runVia
  refine Follows.get (Follows.ofExcept fun types htypes => ?_)
  have htypes' : s.classes.supertypes owner.id = .ok types := by
    have hin : Grounded u s.classes (.named owner.id) :=
      grounded_of_contains (contains_iff.2 ⟨owner, howner.1⟩)
    rw [← h.complete.supertypes hin]
    exact h.later.anchored.within.supertypes htypes
  have hknown : Known s t types := fun c hc =>
    ⟨found_of_supertypes htypes' c hc, found_of_supertypes htypes c hc⟩
  refine ⟨types, htypes', ?_⟩
  refine Follows.bind (addAccessorPairs_follows hb h hs hknown fun pair => t.order.mem_arrange.1)
    ?next ?left ?right
  case left | right =>
    refine fun ps => Inward.bind (Scan.addFields_inward _ ps) fun ps' => ?_
    exact Inward.ite (Inward.bind (log_inward _ _) fun _ => Inward.pure _) (Inward.pure _)
  case next =>
    intro ps qs s₁ t₁ _ _ _ _ hps
    have howner₁ : s₁.classes.find? owner.id = some owner ∧ t₁.classes.find? owner.id = some owner :=
      ⟨hps.next.left.within _ _ howner.1, hps.next.right.within _ _ howner.2⟩
    refine Follows.bind (addFields_follows hb hps.restart (hs.next hps.next) howner₁) ?next ?left ?right
    case left | right =>
      exact fun ps' => Inward.ite (Inward.bind (log_inward _ _) fun _ => Inward.pure _) (Inward.pure _)
    case next =>
      intro ps' qs' s₂ t₂ _ _ _ _ hps'
      have hall := hps'.after hps.next
      exact Follows.ite (hall.logged _ _) (Follows.pure hall)

theorem scan_follows (hb : Leftover a b) (h : Pair u a b s t) (hs : Scope u s t site site')
    (howner : s.classes.find? owner.id = some owner ∧ t.classes.find? owner.id = some owner) :
    Follows (Bounded u) s t (scan owner site) (scan owner site') (Alike u a b s t) := by
  unfold scan
  refine Follows.get ?_
  rw [h.config hb]
  exact run_follows hb h hs howner

end Following

end Introspect
