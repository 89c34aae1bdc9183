import Introspect.Proofs.Classes.Closed
import Introspect.Proofs.Classes.Inheritance
import Introspect.Proofs.Models.Declarations
import Introspect.Proofs.Models.Report
import Introspect.Proofs.Models.Settled

/-!
The properties of a class that adds nothing to its superclass are those of the superclass.

Both scans are made while nothing is declared or registered, and are read off the registry that is there in
the end. They go through the same accessor pairs and the same fields, resolved in two scopes that give the
same types.

* `Property.face`: what is shown of a property.
* `Inherits`: the scan of such a class, and that of its superclass.
* `PairStep.inherit`, `FieldStep.inherit`, `Settled.inherit`: the two scans, step by step and as a whole.
* `inherited_properties`: the property lists of the two models.
-/

namespace Introspect

open Registry ClassTable TypeExpr

/-! ## Faces -/

/-- What is shown of a property: not how its value is accessed. -/
structure PropertyFace where
  name : String
  model : Model
  isTransient : Bool
  isObservable : Bool

def Property.face (p : Property) : PropertyFace := ⟨p.name, p.model, p.isTransient, p.isObservable⟩

/-- Both lists show the same, entry by entry. -/
def SameFaces (ps qs : List Property) : Prop := ps.map Property.face = qs.map Property.face

theorem SameFaces.insert {p q : Property} {ps qs : List Property} (hs : SameFaces ps qs)
    (h : p.face = q.face) : SameFaces (insertProperty p ps) (insertProperty q qs) :=
  insertProperty_map (fun _ _ h => congrArg PropertyFace.name h) h hs

theorem SameFaces.hasProperty {ps qs : List Property} (hs : SameFaces ps qs) (name : String) :
    hasProperty ps name = hasProperty qs name :=
  hasProperty_map PropertyFace.name (fun _ => rfl) hs name

namespace Scan

/-- `S` scans a class that adds nothing to its superclass, and `U` scans the superclass. -/
structure Inherits (v : Registry) (S U : Scan) (up : TypeExpr) : Prop where
  heir : Heir v.classes S.owner up U.owner
  scopes : Heir.Scopes S.owner up S.site U.site
  own : S.owner.isRecord = false
  parent : U.owner.isRecord = false
  accessors : S.config.privateAccessors = U.config.privateAccessors

variable {v : Registry} {S U : Scan} {up : TypeExpr} {types types' : List Class} {ps qs ps' qs' : List Property}

/-! ## Types -/

/-- What resolves in the scope of the class resolves to the same in that of its superclass. -/
theorem Inherits.resolve (h : Inherits v S U up) {ty answer : TypeExpr} {r r' : Registry}
    (hr : v.classes.Within r.classes) (hs : S.resolve ty r = .ok answer r') :
    U.resolve ty r = .ok answer r' := by
  obtain ⟨t, ht, rfl⟩ := onTable_eq_ok hs
  unfold Scan.resolve
  rw [onTable_apply, (h.heir.mono hr).resolve h.scopes ht]

/-- Both scans resolve the accessors of a pair to the same types. -/
theorem Inherits.types_eq (h : Inherits v S U up) {pair : AccessorPair} {r r' : Registry}
    {getter setter getter' setter' : Method} {returns param value taken returns' param' value' taken' : TypeExpr}
    (hs : S.PairTypes pair v r getter setter returns param value taken)
    (hu : U.PairTypes pair v r' getter' setter' returns' param' value' taken') :
    value = value' ∧ taken = taken' ∧ r = r' := by
  cases hs.hgetter.symm.trans hu.hgetter
  cases hs.hsetter.symm.trans hu.hsetter
  cases hs.hreturns.symm.trans hu.hreturns
  cases hs.hparam.symm.trans hu.hparam
  obtain ⟨s, hvalue, htaken⟩ := hs.hresolved
  obtain ⟨s', hvalue', htaken'⟩ := hu.hresolved
  have hgrown : v.classes.Within s.classes := by
    obtain ⟨t, ht, rfl⟩ := onTable_eq_ok hvalue
    exact (resolve_grows returns S.site).ok ht
  have hsame := h.resolve (Within.refl _) hvalue
  rw [hvalue'] at hsame
  cases hsame
  have hsame := h.resolve hgrown htaken
  rw [htaken'] at hsame
  cases hsame
  exact ⟨rfl, rfl, rfl⟩

/-! ## Steps -/

section Pairs

variable {pair : AccessorPair} {r r' : Registry} {getter setter : Method} {returns param value taken : TypeExpr}

theorem PairTypes.complete (h : S.PairTypes pair r r' getter setter returns param value taken) :
    ¬(pair.getter = none ∨ pair.setter = none) := by
  rw [h.hgetter, h.hsetter]
  simp

theorem PairTypes.typed (h : S.PairTypes pair r r' getter setter returns param value taken)
    {getter' setter' : Method} (hg : pair.getter = some getter') (hs : pair.setter = some setter') :
    ¬(getter'.returns = none ∨ setter'.params.head? = none) := by
  cases hg.symm.trans h.hgetter
  cases hs.symm.trans h.hsetter
  rw [h.hreturns, h.hparam]
  simp

/-- An accessor pair makes the same of both scans. -/
theorem PairStep.inherit (h : Inherits v S U up)
    (htransient : isTransientIn types pair.property = isTransientIn types' pair.property)
    (hps : SameFaces ps qs) (hs : S.PairStep types ps pair v v ps')
    (hu : U.PairStep types' qs pair v v qs') : SameFaces ps' qs' := by
  cases hs with
  | incomplete hnone =>
    cases hu with
    | added _ _ _ _ _ _ _ htypes => exact absurd hnone htypes.complete
    | _ => exact hps
  | typeless _ _ hg hs hnone =>
    cases hu with
    | added _ _ _ _ _ _ _ htypes => exact absurd hnone (htypes.typed hg hs)
    | _ => exact hps
  | refused _ _ _ _ _ _ _ htypes hrefused =>
    cases hu with
    | added _ _ _ _ _ _ _ htypes' hfits =>
      obtain ⟨rfl, rfl, rfl⟩ := h.types_eq htypes htypes'
      exact absurd hfits hrefused
    | _ => exact hps
  | added _ _ _ _ _ _ _ htypes hfits model hmodel =>
    cases hu with
    | incomplete hnone => exact absurd hnone htypes.complete
    | typeless _ _ hg hs hnone => exact absurd hnone (htypes.typed hg hs)
    | refused _ _ _ _ _ _ _ htypes' hrefused =>
      obtain ⟨rfl, rfl, rfl⟩ := h.types_eq htypes htypes'
      exact absurd hfits hrefused
    | added _ _ _ _ _ _ _ htypes' _ model' hmodel' =>
      obtain ⟨rfl, rfl, rfl⟩ := h.types_eq htypes htypes'
      rw [hmodel] at hmodel'
      cases hmodel'
      refine hps.insert ?_
      simp only [Property.face, Property.isObservable, htransient]

end Pairs

theorem slotAccess_observable (S : Scan) (f : Field) (model : Model) :
    (⟨model, f.name, f.isTransient, S.slotAccess f⟩ : Property).isObservable = false := by
  unfold slotAccess
  split
  · rfl
  · split <;> rfl

/-- What is made of a field is shown alike in both scans. -/
theorem FieldStep.inherit (h : Inherits v S U up) {f : Field} {ty : TypeExpr} {p? q? : Option Property}
    (hs : S.FieldStep f v v ty v p?) (hu : U.FieldStep f v v ty v q?) :
    p?.map Property.face = q?.map Property.face := by
  cases hs with
  | held hheld p hp =>
    cases hu with
    | held _ q hq =>
      rw [hp] at hq
      cases hq
      rfl
    | skipped hheld' | slotted hheld' => exact absurd hheld hheld'
  | skipped hheld model r hmodel hskip =>
    cases hu with
    | held hheld' => exact absurd hheld' hheld
    | skipped => rfl
    | slotted _ model' hmodel' hkept =>
      rw [hmodel] at hmodel'
      cases hmodel'
      exact absurd ⟨hskip.1, hskip.2.1, h.parent⟩ hkept
  | slotted hheld model hmodel hkept =>
    cases hu with
    | held hheld' => exact absurd hheld' hheld
    | skipped _ model' r hmodel' hskip =>
      rw [hmodel] at hmodel'
      cases hmodel'
      exact absurd ⟨hskip.1, hskip.2.1, h.own⟩ hkept
    | slotted _ model' hmodel' =>
      rw [hmodel] at hmodel'
      cases hmodel'
      simp only [Option.map_some, Property.face, slotAccess_observable]

/-- Both scans pass over the same fields. -/
theorem Inherits.passes (h : Inherits v S U up) (hps : SameFaces ps qs)
    (f : Field) : (f.modifiers.isNative || hasProperty ps f.name || !S.isVisible f) =
      (f.modifiers.isNative || hasProperty qs f.name || !U.isVisible f) := by
  simp only [isVisible, hps.hasProperty, h.own, h.parent, Bool.false_and, Bool.or_false]

theorem FieldAdded.inherit (h : Inherits v S U up) {f : Field}
    (hps : SameFaces ps qs) (hs : S.FieldAdded v ps f ps')
    (hu : U.FieldAdded v qs f qs') : SameFaces ps' qs' := by
  have hpasses := h.passes hps f
  have types : ∀ {ty ty' : TypeExpr}, S.resolve f.type v = .ok ty v → U.resolve f.type v = .ok ty' v →
      ty = ty' := by
    intro ty ty' hty hty'
    rw [h.resolve (Within.refl _) hty] at hty'
    cases hty'
    rfl
  cases hs with
  | passed hpass =>
    cases hu with
    | passed => exact hps
    | without hpass' | added hpass' => exact Bool.noConfusion (hpass.symm.trans (hpasses.trans hpass'))
  | without hpass ty hty hstep =>
    cases hu with
    | passed hpass' => exact Bool.noConfusion (hpass.symm.trans (hpasses.trans hpass'))
    | without => exact hps
    | added _ ty' hty' q hstep' =>
      obtain rfl := types hty hty'
      cases hstep.inherit h hstep'
  | added hpass ty hty p hstep =>
    cases hu with
    | passed hpass' => exact Bool.noConfusion (hpass.symm.trans (hpasses.trans hpass'))
    | without _ ty' hty' hstep' =>
      obtain rfl := types hty hty'
      cases hstep.inherit h hstep'
    | added _ ty' hty' q hstep' =>
      obtain rfl := types hty hty'
      exact hps.insert (Option.some.inj (hstep.inherit h hstep'))

/-! ## Whole scans -/

theorem accessors_congr {config config' : Config} (h : config.privateAccessors = config'.privateAccessors)
    (d : Class) : d.accessors config = d.accessors config' := by
  unfold Class.accessors isAccessorCandidate
  rw [h]

/-- The class declares no accessors that are scanned. -/
theorem Inherits.accessors_eq_nil (h : Inherits v S U up) (config : Config) :
    S.owner.accessors config = [] := by
  unfold Class.accessors
  rcases h.heir.methods with hmethods | hproxy
  · rw [hmethods]
    simp
  · rw [hproxy]
    simp

/-- The class is the only one of its id among the supertypes. -/
theorem Inherits.owner_of_mem (h : Inherits v S U up) {id : ClassId} {cs : List Class}
    (hcs : v.classes.supertypes id = .ok cs) {d : Class} (hd : d ∈ cs) (hid : d.id = S.owner.id) :
    d = S.owner := by
  have hfound := found_of_supertypes hcs d hd
  rw [hid, h.heir.declared] at hfound
  exact (Option.some.inj hfound).symm

/-- The two scans show the same properties. -/
theorem Settled.inherit {chain chain' : List Class} {mid mid' : List Property}
    (hs : S.Settled v types chain mid ps) (hu : U.Settled v types' chain' mid' qs) (h : Inherits v S U up) :
    SameFaces ps qs := by
  have hsame : without S.owner.id types = without S.owner.id types' :=
    h.heir.supertypes hs.supertypes hu.supertypes
  have htypes : ∀ {β : Type} {g : Class → List β}, g S.owner = [] → types.flatMap g = types'.flatMap g := by
    intro β g hg
    rw [← flatMap_without fun d hd hid => (h.owner_of_mem hs.supertypes hd hid).symm ▸ hg, hsame,
      flatMap_without fun d hd hid => (h.owner_of_mem hu.supertypes hd hid).symm ▸ hg]
  have htransient : ∀ name, isTransientIn types name = isTransientIn types' name := by
    intro name
    have hnone : S.owner.field? name = none := by rw [Class.field?, h.heir.fields]; rfl
    unfold isTransientIn
    rw [← findSome?_without fun d hd hid => (h.owner_of_mem hs.supertypes hd hid).symm ▸ hnone, hsame,
      findSome?_without fun d hd hid => (h.owner_of_mem hu.supertypes hd hid).symm ▸ hnone]
  have haccessors : types.flatMap (·.accessors S.config) = types'.flatMap (·.accessors U.config) := by
    rw [htypes (h.accessors_eq_nil S.config)]
    exact congrArg (types'.flatMap ·) (funext (accessors_congr h.accessors))
  have hchain : chain.flatMap Class.instanceFields = chain'.flatMap Class.instanceFields := by
    rw [h.heir.superclassChain hs.superclasses hu.superclasses, List.flatMap_cons, Class.instanceFields,
      h.heir.fields]
    rfl
  have hpairs := haccessors ▸ hs.pairs
  have hmid : SameFaces mid mid' := by
    refine Folds.lockstep (P := SameFaces) ?_ hpairs hu.pairs rfl
    intro ps qs pair ps' qs' hps hstep hstep'
    exact hstep.inherit h (htransient pair.property) hps hstep'
  have hfields := hchain ▸ hs.fields
  refine Folds.lockstep (P := SameFaces) ?_ hfields hu.fields hmid
  intro ps qs f ps' qs' hps hadd hadd'
  exact hadd.inherit h hps hadd'

end Scan

/-! ## Lookups -/

/-- The operation looks up the model of the type. -/
def Operation.LooksUp (ty : TypeExpr) : Operation → Prop
  | .ofType other => other = ty
  | .of id => .named id = ty
  | _ => False

theorem Operation.LooksUp.perform {op : Operation} {ty : TypeExpr} {s : Store} {m : Model} {r : Registry}
    (h : op.LooksUp ty) (hm : Registry.ofType ty s.registry = .ok m r) : (op.perform s).registry = r := by
  cases op with
  | ofType other =>
    cases h
    rw [perform_ofType, after_of_ok hm]
  | of id =>
    cases h
    exact (perform_ofType (.named id) s).trans (after_of_ok hm)
  | _ => exact h.elim

/-- During the run a lookup of the type answers the model. -/
def Store.Answers (s : Store) (ops : List Operation) (ty : TypeExpr) (m : Model) : Prop :=
  ∃ pre op post r, ops = pre ++ op :: post ∧ op.LooksUp ty ∧
    Registry.ofType ty (s.run pre).registry = .ok m r

/-- The model that a lookup has answered is initialized from then on. -/
theorem Store.Answers.initialized {s : Store} {ops : List Operation} {ty : TypeExpr} {m : Model}
    (hv : s.registry.Valid) (h : s.Answers ops ty m) :
    ∃ r r' k, r.Valid ∧ s.registry.Later r ∧ Registry.ofType ty r = .ok m r' ∧
      m ∈ (s.run ops).registry.models ∧ (s.run ops).registry.contents? m = some k := by
  obtain ⟨pre, op, post, r', rfl, hop, hm⟩ := h
  obtain ⟨hvp, hlater⟩ := run_later hv pre
  obtain ⟨concrete, k, start, found, hanswered⟩ := ofType_answered hvp hm
  have hlast : (s.run (pre ++ op :: post)).registry =
      ((op.perform (s.run pre)).run post).registry := by
    rw [Store.run_append, Store.run_cons]
  obtain ⟨-, hrest⟩ := run_later (perform_step op hvp).valid post
  rw [← hlast, hop.perform hm] at hrest
  exact ⟨_, r', k, hvp, hlater, hm, hrest.models.subset (hanswered.step.there m rfl),
    hrest.kept _ _ hanswered.contents⟩

/-- During the run a lookup of the type answers the model, an object or a generic one that was not initialized
before the run. -/
structure Store.Initializes (s : Store) (ops : List Operation) (ty : TypeExpr) (m : Model) : Prop where
  answers : s.Answers ops ty m
  kind : m.kind = .object ∨ m.kind = .generic
  fresh : s.registry.contents? m = none

/-- A class that stands for itself has its own model. -/
theorem parts_of_class {id : ClassId} {c : Class} {r r' : Registry} {m : Model} (hv : r.Valid)
    (hc : r.classes.find? id = some c) (hdirect : c.redirect? = none)
    (h : Registry.ofType (.named id) r = .ok m r') : m.type.parts? = some (id, []) := by
  obtain ⟨concrete, k, start, found, hanswered⟩ := ofType_answered hv h
  have hself : ClassTable.resolve (.named id) (.named id) r.classes = .ok (.named id) r.classes :=
    resolveAt_of_resolved (Resolved.named depthLimit id) _ _
  obtain ⟨rfl, -⟩ := EStateM.Result.ok.inj (hself.symm.trans hanswered.answer)
  have hentry := hanswered.step.valid.entry m (hanswered.step.there m rfl)
  have hlookup := lookup_eq_ok_iff.2 (hanswered.started.within _ _ hc)
  have hcached := (modelFor_direct rfl hlookup hdirect).symm.trans hanswered.model
  rw [hentry.parts, cachedModel_key hcached]
  unfold keyFor keyOf
  simp

/-! ## Inherited properties -/

/-- While nothing is declared or registered, and private accessors are scanned as before or left out as
before, the models of a class that adds nothing to its superclass and of the superclass are initialized. Then
both have the same properties, entry by entry, with the same value models. No declaration may name a class
that only comes to be meanwhile, an array class by its id, and the lookup of the superclass has to answer a
model of its class and arguments. -/
theorem inherited_properties {config : Config} {before ops : List Operation} {c p : Class} {up : TypeExpr}
    {m n : Model}
    (hquiet : ∀ op ∈ ops, op.Quiet (reached config before).registry.config.privateAccessors)
    (hnamed : ∀ id d, (reached config before).registry.classes.find? id = some d → ∀ ty ∈ d.mentions,
      Grounded (reached config (before ++ ops)).registry.classes
        (reached config before).registry.classes ty)
    (hheir : Heir (reached config before).registry.classes c up p)
    (hsynthetic : c.synthetic = false) (hrecord : c.isRecord = false) (hrecord' : p.isRecord = false)
    (hm : (reached config before).Initializes ops (.named c.id) m)
    (hn : (reached config before).Initializes ops up n) (hown : n.type.parts? = up.parts?) :
    let r := (reached config (before ++ ops)).registry
    ∃ ps qs, m.properties r = .ok ps r ∧ n.properties r = .ok qs r ∧ SameFaces ps qs := by
  have hv := reached_valid config before
  have hobject := reached_object config before
  rw [reached_append] at hnamed ⊢
  generalize reached config before = s at *
  intro r
  obtain ⟨hvr, hlater⟩ := run_later hv ops
  have hanchored : Anchored r.classes s.registry.classes := ⟨hlater.classes, hobject, hnamed⟩
  have hheir' := hheir.mono hlater.classes
  -- the model of the class
  obtain ⟨rm, rm', k, hvm, hlm, hof, hin, hk⟩ := hm.answers.initialized hv
  have hparts : m.type.parts? = some (c.id, []) :=
    parts_of_class hvm (hlm.classes _ _ hheir.declared) (by simp [Class.redirect?, hsynthetic]) hof
  obtain ⟨rfl, hargs⟩ := (hvr.entry m hin).of_parts hparts hheir'.declared
  obtain ⟨config₁, types, chain, mid, haccessors, hsettled⟩ :=
    settled_of_quiet hv hquiet hanchored hin hk hm.fresh hm.kind (by simp [hargs])
  -- the model of the superclass
  obtain ⟨-, -, k', -, -, -, hin', hk'⟩ := hn.answers.initialized hv
  obtain ⟨args, hup⟩ := parts?_of_raw? hheir.raw
  obtain ⟨rfl, rfl⟩ := (hvr.entry n hin').of_parts (hown.trans hup) hheir'.parent
  have hgrounded : Grounded r.classes s.registry.classes up :=
    hnamed _ _ hheir.declared up (Class.mentions_supertype (by rw [hheir.supertypes_eq]; simp))
  obtain ⟨config₂, types', chain', mid', haccessors', hsettled'⟩ :=
    settled_of_quiet hv hquiet hanchored hin' hk' hn.fresh hn.kind (grounded_args hgrounded hup)
  have hinherits : Scan.Inherits r ⟨m.cls, m.type, config₁⟩ ⟨n.cls, n.type, config₂⟩ up :=
    ⟨hheir', ⟨hparts, hown⟩, hrecord, hrecord', haccessors.trans haccessors'.symm⟩
  exact ⟨k.properties, k'.properties, Model.properties_of_initialized hk, Model.properties_of_initialized hk',
    hsettled.inherit hsettled' hinherits⟩

/-- A class that does no more than name an argument: an accessor pair and a field of the superclass have the
types that the argument gives them. -/
theorem inherited_properties_names :
    let base : Class :=
      { Class.bare ⟨"Base"⟩ .plain with
        typeParams := [⟨"T", []⟩]
        methods := [⟨"getItem", [], some (.var ⟨"Base"⟩ "T"), .publicOnly, none⟩,
          ⟨"setItem", [.var ⟨"Base"⟩ "T"], none, .publicOnly, none⟩]
        fields := [⟨"items", .array (.var ⟨"Base"⟩ "T"), .publicOnly, false⟩] }
    let up : TypeExpr := .apply ⟨"Base"⟩ [.named .string]
    let names : Class := { Class.bare ⟨"Names"⟩ .plain with superclass := some up }
    let r := (reached {} [.define base, .define names, .of ⟨"Names"⟩, .ofType up]).registry
    ∃ (m n : Model) (ps qs : List Property), m.raw = ⟨"Names"⟩ ∧ n.raw = ⟨"Base"⟩ ∧
      m.properties r = .ok ps r ∧ n.properties r = .ok qs r ∧ SameFaces ps qs ∧
      ps.map (·.name) = ["item", "items"] := by
  intro base up names r
  let start := reached {} [.define base, .define names]
  have hsub : outcome (do
      let m ← Registry.ofType (.named ⟨"Names"⟩)
      return decide (m.raw = ⟨"Names"⟩ ∧ m.kind = .object ∧ start.registry.contents? m = none ∧
        (r.contents? m).map (·.properties.map (·.name)) = some ["item", "items"]))
        start.registry = .ok true := by decide +kernel
  have hsuper : outcome (do
      let n ← Registry.ofType up
      return decide (n.raw = ⟨"Base"⟩ ∧ n.kind = .generic ∧ start.registry.contents? n = none ∧
        n.type.parts? = up.parts?))
        (start.run [.of ⟨"Names"⟩]).registry = .ok true := by decide +kernel
  obtain ⟨m, rm, hm, hpure⟩ := bind_eq_ok_iff.1 (eq_ok_of_outcome hsub)
  obtain ⟨hraw, hkind, hnew, hnames⟩ := of_decide_eq_true (EStateM.Result.ok.inj hpure).1
  obtain ⟨n, rn, hn, hpure'⟩ := bind_eq_ok_iff.1 (eq_ok_of_outcome hsuper)
  obtain ⟨hraw', hkind', hnew', hown⟩ := of_decide_eq_true (EStateM.Result.ok.inj hpure').1
  have hclosed : start.registry.classes.Closed := Closed.of_classes (by decide +kernel)
  have hheir : Heir start.registry.classes names up base.normalize :=
    { declared := reached_declared {} [.define base] [] (by decide +kernel)
      typeParams := rfl
      superclass := rfl
      interfaces := rfl
      fields := rfl
      methods := .inl rfl
      raw := rfl
      parent := reached_declared {} [] [.define names] (by decide +kernel) }
  obtain ⟨ps, qs, hps, hqs, hsame⟩ := @inherited_properties {} [.define base, .define names]
    [.of ⟨"Names"⟩, .ofType up] names base.normalize up m n (by simp [Operation.Quiet])
    (fun id d hd ty hty => (hclosed id d hd ty hty).grounded _) hheir rfl rfl rfl
    ⟨⟨[], _, _, rm, rfl, rfl, hm⟩, .inl hkind, hnew⟩
    ⟨⟨[.of ⟨"Names"⟩], _, _, rn, rfl, rfl, hn⟩, .inr hkind', hnew'⟩ hown
  refine ⟨m, n, ps, qs, hraw, hraw', hps, hqs, hsame, ?_⟩
  obtain ⟨k, hk, hnames⟩ := Option.map_eq_some_iff.1 hnames
  obtain ⟨rfl, -⟩ := EStateM.Result.ok.inj (hps.symm.trans (Model.properties_of_initialized hk))
  exact hnames

/-- Each condition counts. When private accessors are let in between the two lookups, the superclass has a
property more. So it does when its getter names an array class that only the scan of the class makes. And when
a codec has been registered for a generic superclass whose model was found before, that model answers for the
parameterization too, without its argument. -/
theorem inherited_properties_differ :
    let heir (up : TypeExpr) : Class := { Class.bare ⟨"Sub"⟩ .plain with superclass := some up }
    let shaped : Class :=
      { Class.bare ⟨"Shaped"⟩ .plain with
        methods := [⟨"getShape", [], some (.named .string), .privateOnly, none⟩,
          ⟨"setShape", [.named .string], none, .privateOnly, none⟩] }
    let tagged : Class :=
      { Class.bare ⟨"Tagged"⟩ .plain with
        methods := [⟨"getTags", [], some (.named ⟨"String[]"⟩), .publicOnly, none⟩,
          ⟨"setTags", [.object], none, .publicOnly, none⟩]
        fields := [⟨"names", .array (.named .string), .publicOnly, false⟩] }
    let box : Class :=
      { Class.bare ⟨"Box"⟩ .plain with
        typeParams := [⟨"T", []⟩]
        fields := [⟨"item", .var ⟨"Box"⟩ "T", .publicOnly, false⟩] }
    let user : Class :=
      { Class.bare ⟨"User"⟩ .plain with fields := [⟨"box", .named ⟨"Box"⟩, .publicOnly, false⟩] }
    let boxed : TypeExpr := .apply ⟨"Box"⟩ [.named .string]
    let object (id : ClassId) (ps : List PropertyView) : Report := .found ⟨(.object, some (id, [])), ps, []⟩
    let property (name : String) (kind : ModelKind) (value : ClassId) : PropertyView :=
      ⟨name, (kind, some (value, [])), false, false⟩
    let r := (reached {} [.define shaped, .define (heir (.named ⟨"Shaped"⟩)), .of ⟨"Sub"⟩,
      .setConfig { privateAccessors := true }, .of ⟨"Shaped"⟩]).registry
    let s := (reached {} [.define tagged, .define (heir (.named ⟨"Tagged"⟩)), .of ⟨"Sub"⟩,
      .of ⟨"Tagged"⟩]).registry
    let t := (reached {} [.define box, .define user, .define (heir boxed), .of ⟨"User"⟩,
      .registerCodec ⟨"Box"⟩ .text, .of ⟨"Sub"⟩, .ofType boxed]).registry
    (r.report (.named ⟨"Sub"⟩) = object ⟨"Sub"⟩ [] ∧
      r.report (.named ⟨"Shaped"⟩) = object ⟨"Shaped"⟩ [property "shape" .scalar .string]) ∧
    (s.report (.named ⟨"Sub"⟩) = object ⟨"Sub"⟩ [property "names" .array ⟨"String[]"⟩] ∧
      s.report (.named ⟨"Tagged"⟩) =
        object ⟨"Tagged"⟩ [property "names" .array ⟨"String[]"⟩, property "tags" .array ⟨"String[]"⟩]) ∧
    (t.report (.named ⟨"Sub"⟩) = object ⟨"Sub"⟩ [property "item" .scalar .string] ∧
      t.report boxed = object ⟨"Box"⟩ [property "item" .object .object]) := by
  decide +kernel

end Introspect
