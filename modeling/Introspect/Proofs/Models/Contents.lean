import Introspect.Proofs.Models.Invariant

/-!
Initialization keeps the invariant: the scan and the parameters of a model lead to cached models only, and
contents are kept for the one model that is initialized, when nothing failed.

* `scan_keeps`, `assemble_keeps`, `build_keeps`: what a model gets.
* `getContents_cases`: the three outcomes of an initialization.
* `Step`: what an operation on the registry may do.
* `getContents_step`: whatever the outcome, at most one model is initialized.
* `getContents_error`: a failed initialization initializes nothing.
-/

namespace Introspect

open Registry TypeExpr

/-! ## Scan -/

/-- The value models of the properties are cached. -/
def AllCached (ps : List Property) (r : Registry) : Prop := ∀ p ∈ ps, Cached p.model r

theorem AllCached.grown {ps : List Property} {r s : Registry} (h : AllCached ps r)
    (hs : r.Grown s) : AllCached ps s :=
  fun p hp => (h p hp).grown hs

theorem mem_insertProperty {p q : Property} {ps : List Property} (h : q ∈ insertProperty p ps) :
    q = p ∨ q ∈ ps := by
  induction ps with
  | nil => exact .inl (List.mem_singleton.1 h)
  | cons a as ih =>
    unfold insertProperty at h
    split at h
    · exact List.mem_cons.1 h
    · split at h
      · exact .inr h
      · rcases List.mem_cons.1 h with rfl | h
        · exact .inr (List.mem_cons_self ..)
        · rcases ih h with h | h
          · exact .inl h
          · exact .inr (List.mem_cons_of_mem _ h)

theorem AllCached.insert {p : Property} {ps : List Property} {r : Registry}
    (hp : Cached p.model r) (hps : AllCached ps r) : AllCached (insertProperty p ps) r := by
  intro q hq
  rcases mem_insertProperty hq with rfl | hq
  · exact hp
  · exact hps q hq

namespace Scan

variable {r : Registry} {s : Scan}

theorem trace_keeps (text : String) : Keeps r (s.trace text) fun _ _ => True := log_keeps _ _

theorem addAccessorPair_keeps (types : List Class) {ps : List Property} (hps : AllCached ps r)
    (pair : AccessorPair) : Keeps r (s.addAccessorPair types ps pair) AllCached := by
  have same : Keeps r (pure ps : RegistryM (List Property)) AllCached :=
    Keeps.pure fun _ hs => hps.grown hs
  unfold addAccessorPair
  split
  · split
    · refine Keeps.bind (resolve_keeps _ _) fun valueType r₁ h₁ hvalue => ?_
      refine Keeps.bind (resolve_keeps _ _) fun paramType r₂ h₂ _ => ?_
      refine Keeps.bind Keeps.get fun t r₃ h₃ _ => ?_
      have hps₃ : AllCached ps r₃ := hps.grown ((h₁.trans h₂).trans h₃)
      split
      · refine Keeps.bind (modelFor_keeps hvalue) fun m r₄ h₄ hm => ?_
        exact Keeps.pure fun _ h₅ => ((hps₃.grown h₄).insert hm).grown h₅
      · refine Keeps.bind (trace_keeps _) fun _ r₄ h₄ _ => ?_
        exact Keeps.pure fun _ h₅ => hps₃.grown (h₄.trans h₅)
    · exact same
  · refine Keeps.bind (trace_keeps _) fun _ r₁ h₁ _ => ?_
    exact Keeps.pure fun _ h₂ => hps.grown (h₁.trans h₂)

theorem addAccessorPairs_keeps (types : List Class) (pairs : List AccessorPair) :
    Keeps r (s.addAccessorPairs types pairs) AllCached := by
  unfold addAccessorPairs
  refine Keeps.foldlM ?_ (fun _ _ _ hs h => h.grown hs) (by intro p hp; cases hp)
  intro ps r₁ pair _ _ hps
  exact addAccessorPair_keeps types hps pair

theorem holderProperty_keeps (f : Field) (fieldType : TypeExpr) :
    Keeps r (holderProperty f fieldType) fun p t => Cached p.model t := by
  have rest : ∀ {r₁ : Registry} {valueType : TypeExpr}, Resolved (depthLimit + 1) valueType →
      Keeps r₁ (do return (⟨← modelFor valueType, f.name, f.isTransient, .holder f.name⟩ : Property))
        fun p t => Cached p.model t := by
    intro r₁ valueType hvalue
    refine Keeps.bind (modelFor_keeps hvalue) fun m r₂ _ hm => ?_
    exact Keeps.pure fun _ h₃ => hm.grown h₃
  unfold holderProperty
  refine Keeps.bind Keeps.get fun t r₁ _ _ => ?_
  refine Keeps.bind (Keeps.ofExcept _) fun args r₂ _ _ => ?_
  simp only
  split
  · exact Keeps.bind (resolve_keeps _ _) fun valueType r₃ _ hvalue => rest hvalue
  · exact Keeps.bind (Keeps.pure (Q := fun ty _ => ty = TypeExpr.object) fun _ _ => rfl)
      fun valueType r₃ _ hvalue => rest (hvalue ▸ Resolved.named depthLimit .object)

theorem fieldProperty?_keeps (f : Field) :
    Keeps r (s.fieldProperty? f) fun p? t => ∀ p, p? = some p → Cached p.model t := by
  unfold fieldProperty?
  refine Keeps.bind (resolve_keeps _ _) fun fieldType r₁ _ hfield => ?_
  refine Keeps.bind Keeps.get fun t r₂ _ _ => ?_
  split
  · refine Keeps.bind (holderProperty_keeps f fieldType) fun p r₃ _ hp => ?_
    refine Keeps.pure fun _ h₄ q hq => ?_
    cases hq
    exact hp.grown h₄
  · refine Keeps.bind (modelFor_keeps hfield) fun m r₃ _ hm => ?_
    split
    · refine Keeps.bind (trace_keeps _) fun _ r₄ _ _ => ?_
      exact Keeps.pure fun _ _ q hq => by cases hq
    · refine Keeps.pure fun _ h₄ q hq => ?_
      cases hq
      exact hm.grown h₄

theorem addField_keeps {ps : List Property} (hps : AllCached ps r) (f : Field) :
    Keeps r (s.addField ps f) AllCached := by
  unfold addField
  split
  · exact Keeps.pure fun _ hs => hps.grown hs
  · refine Keeps.bind (fieldProperty?_keeps f) fun p? r₁ h₁ hp => ?_
    cases p? with
    | none => exact Keeps.pure fun _ h₂ => hps.grown (h₁.trans h₂)
    | some p => exact Keeps.pure fun _ h₂ => ((hps.grown h₁).insert (hp p rfl)).grown h₂

theorem addFields_keeps {ps : List Property} (hps : AllCached ps r) :
    Keeps r (s.addFields ps) AllCached := by
  unfold addFields
  refine Keeps.bind Keeps.get fun t r₁ h₁ _ => ?_
  have loop : Keeps r₁ (((t.classes.chainWithin (t.classes.size + 1) s.owner).flatMap
      Class.instanceFields).foldlM s.addField ps) AllCached :=
    Keeps.foldlM (fun _ _ f _ _ hps => addField_keeps hps f) (fun _ _ _ hs h => h.grown hs)
      (hps.grown h₁)
  refine Keeps.bind loop fun ps' r₂ _ hps' => ?_
  have chain : Keeps r₂ (discard (ofExcept (t.classes.superclassChain s.owner)) : RegistryM Unit)
      fun _ _ => True := by
    intro u hu hv
    cases t.classes.superclassChain s.owner with
    | ok cs => exact ⟨hv, Grown.refl u, fun _ _ _ => trivial⟩
    | error e => exact ⟨hv, Grown.refl u, fun _ _ _ => trivial⟩
  refine Keeps.bind chain fun _ r₃ h₃ _ => ?_
  exact Keeps.pure fun _ h₄ => hps'.grown (h₃.trans h₄)

theorem runVia_keeps (arrange : List AccessorPair → List AccessorPair) :
    Keeps r (s.runVia arrange) AllCached := by
  unfold runVia
  refine Keeps.bind Keeps.get fun t r₁ _ _ => ?_
  refine Keeps.bind (Keeps.ofExcept _) fun types r₂ _ _ => ?_
  refine Keeps.bind (addAccessorPairs_keeps types _) fun ps r₃ _ hps => ?_
  refine Keeps.bind (addFields_keeps hps) fun ps' r₄ _ hps' => ?_
  split
  · refine Keeps.bind (log_keeps _ _) fun _ r₅ h₅ _ => ?_
    exact Keeps.pure fun _ h₆ => hps'.grown (h₅.trans h₆)
  · exact Keeps.pure fun _ h₅ => hps'.grown h₅

theorem run_keeps : Keeps r s.run AllCached :=
  Keeps.bind Keeps.get fun t _ _ _ => runVia_keeps t.order.arrange

end Scan

theorem scan_keeps {r : Registry} (owner : Class) (site : TypeExpr) :
    Keeps r (scan owner site) AllCached :=
  Keeps.bind Keeps.get fun _ _ _ _ => Scan.run_keeps

/-! ## Contents -/

namespace Model

variable {r : Registry} {m : Model}

/-- The models the contents lead to are cached. -/
def Leads (c : Contents) (r : Registry) : Prop := ∀ m ∈ c.models, Cached m r

theorem leads_iff {c : Contents} :
    Leads c r ↔ AllCached c.properties r ∧ ∀ m ∈ c.parameters, Cached m r := by
  unfold Leads AllCached Contents.models
  constructor
  · intro h
    refine ⟨fun p hp => h _ (List.mem_append_left _ (List.mem_map_of_mem hp)), fun m hm => ?_⟩
    exact h m (List.mem_append_right _ hm)
  · rintro ⟨hps, hms⟩ m hm
    rcases List.mem_append.1 hm with hm | hm
    · obtain ⟨p, hp, rfl⟩ := List.mem_map.1 hm
      exact hps p hp
    · exact hms m hm

theorem Leads.grown {c : Contents} {s : Registry} (h : Leads c r) (hs : r.Grown s) : Leads c s :=
  fun m hm => (h m hm).grown hs

theorem argument_keeps (target : ClassId) (index : Nat) :
    Keeps r (m.argument target index) fun ty _ => Resolved (depthLimit + 1) ty := by
  unfold argument
  refine Keeps.bind Keeps.get fun t r₁ _ _ => ?_
  refine Keeps.bind (Keeps.ofExcept _) fun args r₂ _ _ => ?_
  split
  · exact resolve_keeps _ _
  · exact Keeps.pure fun _ _ => Resolved.named depthLimit .object

theorem component_keeps :
    Keeps r m.component fun ty _ => Resolved (depthLimit + 1) ty := by
  unfold component
  split
  · exact resolve_keeps _ _
  · exact Keeps.pure fun _ _ => Resolved.named depthLimit .object

/-- The type arguments of a resolved type are resolved. -/
theorem typeArguments_resolved (h : Resolved (depthLimit + 1) m.type) :
    ∀ ty ∈ m.typeArguments, Resolved (depthLimit + 1) ty := by
  intro ty hty
  unfold typeArguments at hty
  split at hty
  · next raw args heq =>
    rw [heq] at h
    exact (Resolved.apply_iff.1 h ty hty).mono (Nat.le_succ depthLimit)
  · cases hty

theorem assemble_keeps (h : Resolved (depthLimit + 1) m.type) : Keeps r m.assemble Leads := by
  have none : Leads ⟨[], []⟩ r := by intro n hn; cases hn
  unfold assemble
  split
  · exact Keeps.pure fun _ hs => none.grown hs
  · refine Keeps.bind (scan_keeps _ _) fun ps r₁ _ hps => ?_
    refine Keeps.pure fun s hs => ?_
    exact leads_iff.2 ⟨hps.grown hs, fun n hn => by cases hn⟩
  · refine Keeps.bind (Keeps.mapM (fun ty hty => modelFor_keeps (typeArguments_resolved h ty hty))
      fun _ _ _ hs hm => hm.grown hs) fun ms r₁ _ hms => ?_
    refine Keeps.bind (scan_keeps _ _) fun ps r₂ h₂ hps => ?_
    refine Keeps.pure fun s hs => ?_
    exact leads_iff.2 ⟨hps.grown hs, fun n hn => (hms n hn).grown (h₂.trans hs)⟩
  · refine Keeps.bind (argument_keeps _ _) fun item r₁ _ hitem => ?_
    refine Keeps.bind (modelFor_keeps hitem) fun n r₂ _ hn => ?_
    refine Keeps.pure fun s hs => leads_iff.2 ⟨fun p hp => (by cases hp), fun k hk => ?_⟩
    cases List.mem_singleton.1 hk
    exact hn.grown hs
  · refine Keeps.bind (argument_keeps _ _) fun key r₁ _ hkey => ?_
    refine Keeps.bind (argument_keeps _ _) fun value r₂ _ hvalue => ?_
    refine Keeps.bind (modelFor_keeps hkey) fun k r₃ _ hk => ?_
    refine Keeps.bind (modelFor_keeps hvalue) fun v r₄ h₄ hv => ?_
    refine Keeps.pure fun s hs => leads_iff.2 ⟨fun p hp => (by cases hp), fun n hn => ?_⟩
    rcases List.mem_cons.1 hn with rfl | hn
    · exact hk.grown (h₄.trans hs)
    · cases List.mem_singleton.1 hn
      exact hv.grown hs
  · refine Keeps.bind component_keeps fun component r₁ _ hcomponent => ?_
    refine Keeps.bind (modelFor_keeps hcomponent) fun n r₂ _ hn => ?_
    refine Keeps.pure fun s hs => leads_iff.2 ⟨fun p hp => (by cases hp), fun k hk => ?_⟩
    cases List.mem_singleton.1 hk
    exact hn.grown hs

theorem build_keeps (h : Resolved (depthLimit + 1) m.type) : Keeps r m.build Leads := by
  unfold build
  refine Keeps.bind requireLive_keeps fun _ r₁ _ _ => ?_
  refine Keeps.bind (assemble_keeps h) fun c r₂ _ hc => ?_
  refine Keeps.bind Keeps.get fun t r₃ h₃ _ => ?_
  split
  · refine Keeps.bind (log_keeps _ _) fun _ r₄ h₄ _ => ?_
    exact Keeps.pure fun _ h₅ => hc.grown ((h₃.trans h₄).trans h₅)
  · exact Keeps.pure fun _ h₄ => hc.grown (h₃.trans h₄)

/-! ## Initialization -/

theorem getContents_cases (m : Model) (r : Registry) :
    (∃ c, r.contents? m = some c ∧ m.getContents r = .ok c r) ∨
      (r.contents? m = none ∧ ∃ c r', m.build r = .ok c r' ∧
        m.getContents r = .ok c { r' with contents := r'.contents.insert m.id c }) ∨
      (r.contents? m = none ∧ ∃ e r', m.build r = .error e r' ∧
        m.getContents r = .error e (r'.logged .error (m.initializationFailure e))) := by
  unfold getContents
  cases hc : r.contents? m with
  | some c => exact .inl ⟨c, rfl, rfl⟩
  | none =>
    cases hb : m.build r with
    | ok c r' => exact .inr (.inl ⟨rfl, c, r', rfl, rfl⟩)
    | error e r' => exact .inr (.inr ⟨rfl, e, r', rfl, rfl⟩)

end Model

namespace Registry

/-- One registry is an earlier stage of the other: it has some of its classes and its first models. -/
structure Earlier (r r' : Registry) : Prop where
  valid : r.Valid
  classes : r.classes.Within r'.classes
  models : r.models <+: r'.models

theorem Earlier.later {r s t : Registry} (h : Earlier r s) (hclasses : s.classes.Within t.classes)
    (hmodels : s.models <+: t.models) : Earlier r t :=
  ⟨h.valid, ClassTable.Within.trans _ _ _ h.classes hclasses, h.models.trans hmodels⟩

/-- The contents were built for the model of the id, at an earlier stage. -/
def BuiltBefore (r : Registry) (id : Nat) (c : Contents) : Prop :=
  ∃ (m : Model) (s s' : Registry), m ∈ s.models ∧ m.id = id ∧ s.Valid ∧ s.models <+: r.models ∧
    m.build s = .ok c s' ∧ Earlier s' r

theorem BuiltBefore.later {r r' : Registry} {id : Nat} {c : Contents} (h : BuiltBefore r id c)
    (hclasses : r.classes.Within r'.classes) (hmodels : r.models <+: r'.models) :
    BuiltBefore r' id c := by
  obtain ⟨m, s, s', hm, hid, hv, hs, hb, hs'⟩ := h
  exact ⟨m, s, s', hm, hid, hv, hs.trans hmodels, hb, hs'.later hclasses hmodels⟩

/-- What an operation is asked to change of a registry, besides what lookups change. -/
inductive Change where
  | classes
  | codec (id : ClassId)
  | config

/-- Nothing is declared or registered, and the same accessors are scanned as before; array classes may be
made. -/
structure Calm (r r' : Registry) : Prop where
  classes : r.classes.Extends r'.classes
  codecs : r'.codecs = r.codecs
  accessors : r'.config.privateAccessors = r.config.privateAccessors

theorem Calm.refl (r : Registry) : r.Calm r := ⟨ClassTable.Extends.refl _, rfl, rfl⟩

theorem Calm.trans {r s t : Registry} (h : r.Calm s) (h' : s.Calm t) : r.Calm t :=
  ⟨ClassTable.Extends.trans _ _ _ h.classes h'.classes, h'.codecs.trans h.codecs,
    h'.accessors.trans h.accessors⟩

theorem Grown.calm {r r' : Registry} (h : r.Grown r') : r.Calm r' :=
  ⟨h.classes, h.codecs, by rw [h.config]⟩

/-- The contents were built for the model of the id, at a stage between the two; when no change is asked for,
that stage differs from the first one as little as a lookup makes it differ. -/
def BuiltSince (change : Option Change) (r r' : Registry) (id : Nat) (c : Contents) : Prop :=
  ∃ (m : Model) (s s' : Registry), m ∈ s.models ∧ m.id = id ∧ s.Valid ∧ s.models <+: r'.models ∧
    m.build s = .ok c s' ∧ Earlier s' r' ∧ (change = none → r.Calm s)

theorem BuiltSince.later {change : Option Change} {r s t : Registry} {id : Nat} {c : Contents}
    (h : BuiltSince change r s id c) (hclasses : s.classes.Within t.classes)
    (hmodels : s.models <+: t.models) : BuiltSince change r t id c := by
  obtain ⟨m, x, x', hm, hid, hv, hx, hb, hx', hcalm⟩ := h
  exact ⟨m, x, x', hm, hid, hv, hx.trans hmodels, hb, hx'.later hclasses hmodels, hcalm⟩

theorem BuiltSince.after {change : Option Change} {r s t : Registry} {id : Nat} {c : Contents}
    (h : BuiltSince change s t id c) (hcalm : change = none → r.Calm s) : BuiltSince change r t id c := by
  obtain ⟨m, x, x', hm, hid, hv, hx, hb, hx', hcalm'⟩ := h
  exact ⟨m, x, x', hm, hid, hv, hx, hb, hx', fun hnone => (hcalm hnone).trans (hcalm' hnone)⟩

theorem BuiltSince.before {change : Option Change} {r r' : Registry} {id : Nat} {c : Contents}
    (h : BuiltSince change r r' id c) : BuiltBefore r' id c := by
  obtain ⟨m, s, s', hm, hid, hv, hs, hb, hs', -⟩ := h
  exact ⟨m, s, s', hm, hid, hv, hs, hb, hs'⟩

/-- What a step of the registry may do: classes and models are added at most, no contents change, at most
the model that is asked to initialize gets some, which are built for it, and codecs change for one class
at most. -/
structure Step (subject : Option Model) (change : Option Change) (r r' : Registry) : Prop where
  valid : r'.Valid
  classes : r.classes.Within r'.classes
  models : r.models <+: r'.models
  kept : ∀ (id : Nat) (c : Contents), r.contents.find? id = some c → r'.contents.find? id = some c
  only : ∀ id, subject.map (·.id) ≠ some id → r'.contents.find? id = r.contents.find? id
  built : ∀ (id : Nat) (c : Contents), r'.contents.find? id = some c →
    r.contents.find? id = some c ∨ BuiltSince change r r' id c
  codecs : ∀ id, change ≠ some (.codec id) →
    r'.codecs.registered.find? id = r.codecs.registered.find? id
  calm : change = none → r.Calm r'
  there : ∀ m, subject = some m → m ∈ r'.models

theorem Step.refl {r : Registry} (h : r.Valid) {subject : Option Model}
    (hm : ∀ m, subject = some m → m ∈ r.models) (change : Option Change) :
    Step subject change r r where
  valid := h
  classes := ClassTable.Within.refl _
  models := List.prefix_refl _
  kept _ _ hc := hc
  only _ _ := rfl
  built _ _ hc := .inl hc
  codecs _ _ := rfl
  calm _ := Calm.refl r
  there := hm

theorem Step.trans {subject : Option Model} {change : Option Change} {r s t : Registry}
    (h : Step subject change r s) (h' : Step subject change s t) : Step subject change r t where
  valid := h'.valid
  classes := ClassTable.Within.trans _ _ _ h.classes h'.classes
  models := h.models.trans h'.models
  kept id c hc := h'.kept id c (h.kept id c hc)
  only id hid := (h'.only id hid).trans (h.only id hid)
  built id c hc := by
    rcases h'.built id c hc with hc | hb
    · rcases h.built id c hc with hc | hb
      · exact .inl hc
      · exact .inr (hb.later h'.classes h'.models)
    · exact .inr (hb.after h.calm)
  codecs id hid := (h'.codecs id hid).trans (h.codecs id hid)
  calm hnone := (h.calm hnone).trans (h'.calm hnone)
  there := h'.there

theorem Step.of_grown {r r' : Registry} (hg : r.Grown r') (hv : r'.Valid)
    {subject : Option Model} (hm : ∀ m, subject = some m → m ∈ r'.models)
    (change : Option Change) : Step subject change r r' where
  valid := hv
  classes := hg.within
  models := hg.models
  kept id c hc := by rw [hg.contents]; exact hc
  only id _ := by rw [hg.contents]
  built id c hc := .inl (by rw [← hg.contents]; exact hc)
  codecs id _ := by rw [hg.codecs]
  calm _ := hg.calm
  there := hm

/-- Contents that are put in for a cached model keep the registry valid. -/
theorem Valid.fill {r : Registry} {m : Model} {c : Contents} (hv : r.Valid) (hid : m.id < r.models.length)
    (hc : Model.Leads c r) : Valid { r with contents := r.contents.insert m.id c } where
  place := hv.place
  cached := hv.cached
  entry := hv.entry
  owned id d hd := by
    by_cases h : id = m.id
    · exact h ▸ hid
    · rw [Dict.find?_insert_of_ne _ _ h] at hd
      exact hv.owned id d hd
  closed id d hd := by
    by_cases h : id = m.id
    · subst h
      rw [Dict.find?_insert_self] at hd
      cases hd
      exact hc
    · rw [Dict.find?_insert_of_ne _ _ h] at hd
      exact hv.closed id d hd

/-- Two models of a registry are the same when their places are. -/
theorem Valid.eq_of_id {r : Registry} {m n : Model} (hv : r.Valid) (hm : m ∈ r.models)
    (hn : n ∈ r.models) (h : m.id = n.id) : m = n := by
  obtain ⟨i, hi⟩ := List.mem_iff_getElem?.1 hm
  obtain ⟨j, hj⟩ := List.mem_iff_getElem?.1 hn
  have hij : i = j := by rw [← hv.place i m hi, ← hv.place j n hj, h]
  rw [hij, hj] at hi
  cases hi
  rfl

theorem Valid.model_of_contents {r : Registry} (hv : r.Valid) {id : Nat} {c : Contents}
    (h : r.contents.find? id = some c) : ∃ m ∈ r.models, m.id = id := by
  have hm := List.getElem?_eq_getElem (hv.owned id c h)
  exact ⟨_, List.mem_of_getElem? hm, hv.place id _ hm⟩

theorem Valid.id_lt {r : Registry} {m : Model} (hv : r.Valid) (hm : m ∈ r.models) : m.id < r.models.length := by
  obtain ⟨i, hi⟩ := List.mem_iff_getElem?.1 hm
  have hlt : i < r.models.length := (List.getElem?_eq_some_iff.1 hi).1
  rw [hv.place i m hi]
  exact hlt

end Registry

namespace Model

variable {r r' : Registry} {m : Model}

theorem getContents_step (hv : r.Valid) (hm : m ∈ r.models) :
    Step (some m) none r (after m.getContents r) := by
  have hb := build_keeps (hv.entry m hm).resolved r (Grown.refl r) hv
  have there : ∀ {s : Registry}, r.Grown s → ∀ n, some m = some n → n ∈ s.models := by
    intro s hs n hn
    cases hn
    exact Cached.grown hm hs
  rcases getContents_cases m r with ⟨c, -, h⟩ | ⟨hnone, c, r₁, hbuild, h⟩ | ⟨-, e, r₁, hbuild, h⟩
  · rw [after_of_ok h]
    exact Step.refl hv (there (Grown.refl r)) _
  · rw [after_of_ok hbuild] at hb
    obtain ⟨hv₁, hg, hc⟩ := hb
    rw [after_of_ok h]
    have hlt : m.id < r₁.models.length := hv₁.id_lt (Cached.grown hm hg)
    have hne : ∀ {id : Nat}, r.contents.find? id ≠ none ∨ some m.id ≠ some id → id ≠ m.id := by
      rintro id (hid | hid) rfl
      · exact hid hnone
      · exact hid rfl
    refine ⟨hv₁.fill hlt (hc c r₁ hbuild), hg.within, hg.models, fun id d hd => ?_,
      fun id hid => ?_, fun id d hd => ?_, fun id _ => by rw [hg.codecs],
      fun _ => ⟨hg.classes, hg.codecs, by rw [hg.config]⟩, fun n hn => there hg n hn⟩
    · have hid : id ≠ m.id := hne (.inl (by rw [hd]; exact Option.some_ne_none d))
      rw [Dict.find?_insert_of_ne _ _ hid, hg.contents]
      exact hd
    · rw [Dict.find?_insert_of_ne _ _ (hne (.inr hid)), hg.contents]
    · by_cases hid : id = m.id
      · subst hid
        rw [Dict.find?_insert_self] at hd
        cases hd
        exact .inr ⟨m, r, r₁, hm, rfl, hv, hg.models, hbuild,
          ⟨hv₁, ClassTable.Within.refl _, List.prefix_refl _⟩, fun _ => Calm.refl r⟩
      · rw [Dict.find?_insert_of_ne _ _ hid, hg.contents] at hd
        exact .inl hd
  · rw [after_of_error hbuild] at hb
    obtain ⟨hv₁, hg, -⟩ := hb
    rw [after_of_error h]
    have hlog : r.Grown (r₁.logged .error (m.initializationFailure e)) :=
      hg.trans (Grown.logged r₁ _ _)
    exact Step.of_grown hlog (hv₁.logged _ _) (there hlog) _

/-- A failed initialization leaves every model as it was, and the model itself uninitialized. -/
theorem getContents_error {e : Error} (hv : r.Valid) (hm : m ∈ r.models)
    (h : m.getContents r = .error e r') :
    r'.contents = r.contents ∧ r'.isInitialized m = false := by
  rcases getContents_cases m r with ⟨c, -, h'⟩ | ⟨-, c, r₁, -, h'⟩ | ⟨hnone, e', r₁, hbuild, h'⟩
  · rw [h'] at h; cases h
  · rw [h'] at h; cases h
  · rw [h'] at h
    cases h
    have hg := (build_keeps (hv.entry m hm).resolved r (Grown.refl r) hv).2.1
    rw [after_of_error hbuild] at hg
    refine ⟨hg.contents, ?_⟩
    show (r₁.contents.find? m.id).isSome = false
    rw [hg.contents]
    exact Option.isSome_eq_false_iff.2 (Option.isNone_iff_eq_none.2 hnone)

/-- After a successful initialization the model has the contents it answered. -/
theorem getContents_ok {c : Contents} (h : m.getContents r = .ok c r') :
    r'.contents? m = some c := by
  rcases getContents_cases m r with ⟨d, hd, h'⟩ | ⟨-, d, r₁, -, h'⟩ | ⟨-, e, r₁, -, h'⟩
  · rw [h'] at h; cases h; exact hd
  · rw [h'] at h; cases h; exact Dict.find?_insert_self _ _ _
  · rw [h'] at h; cases h

theorem getContents_of_initialized {c : Contents} (h : r.contents? m = some c) :
    m.getContents r = .ok c r := by
  simp only [getContents, h]

theorem properties_of_initialized {c : Contents} (h : r.contents? m = some c) :
    m.properties r = .ok c.properties r := by
  unfold properties
  rw [bind_of_ok (getContents_of_initialized h)]
  rfl

end Model

namespace Registry

/-- A failed lookup has added classes and models at most. -/
theorem ofType_failed {ty : TypeExpr} {r r₁ : Registry} {e : Error} (hv : r.Valid)
    (h : ofType ty r = .error e r₁) : r₁.Valid ∧ r.Grown r₁ := by
  obtain ⟨hv₁, hg, hc⟩ := modelOf_keeps ty r (Grown.refl r) hv
  cases hm : modelOf ty r with
  | error e' r₂ =>
    rw [after_of_error hm] at hv₁ hg
    rw [ofType_of_error hm] at h
    cases h
    exact ⟨hv₁, hg⟩
  | ok m r₂ =>
    rw [after_of_ok hm] at hv₁ hg
    rw [ofType_of_ok hm] at h
    have hb := Model.build_keeps (hv₁.entry m (hc m r₂ hm)).resolved r₂ (Grown.refl r₂) hv₁
    rcases Model.getContents_cases m r₂ with ⟨c, -, hget⟩ | ⟨-, c, r₃, -, hget⟩ |
      ⟨-, e', r₃, hbuild, hget⟩
    · rw [hget] at h; cases h
    · rw [hget] at h; cases h
    · rw [hget] at h
      cases h
      rw [after_of_error hbuild] at hb
      exact ⟨hb.1.logged _ _, hg.trans (hb.2.1.trans (Grown.logged _ _ _))⟩

end Registry
end Introspect
