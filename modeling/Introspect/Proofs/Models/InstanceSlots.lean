import Introspect.Proofs.Models.Endless
import Introspect.Proofs.Models.FreshObjects
import Introspect.Proofs.Models.Synthetic

/-!
The slots of a new object, and the properties that are kept in them.

Instantiation and the scan walk along a chain of superclasses each in its own way. Instantiation starts from the
class itself and gives a slot to every instance field with a new name. The scan passes over fields that are not
to be seen, and starts from where the synthetic classes lead. So long as that is a class of the same chain, it
makes properties only of fields that have slots.

* `OwnHolders`: holders among the defaults are new ones.
* `instantiate_slotted`: the slots of a new object.
* `way_along_chain`: synthetic classes that name their superclasses lead along the chain.
* `field_on_chain`: a field property of a class of the chain is made of a field of the chain.
* `instance_slots_scanned`: the field properties of the model of a class name slots of a new object.
* `slot_missing`: a synthetic class above which there is only a type variable.
-/

namespace Introspect

open Relation Registry ClassTable TypeExpr

namespace ClassTable

variable {t : ClassTable} {c d : Class} {h h' : Heap} {chain : List Class}

/-! ## Holders -/

/-- The holders in the slots were made since the first heap, one for each slot. -/
structure OwnHolders (h : Heap) (slots : Dict String Value) (h' : Heap) : Prop where
  new : ∀ name i, slots.find? name = some (.holder i) → h.holders.size ≤ i ∧ i < h'.holders.size
  apart : ∀ name other i, slots.find? name = some (.holder i) → slots.find? other = some (.holder i) →
    name = other

theorem defaultValue_holder {ty : TypeExpr} {v : Value} (hrun : t.defaultValue ty h = .ok v h') :
    (h' = h ∧ ∀ i, v ≠ .holder i) ∨
      (v = .holder h.holders.size ∧ h'.holders.size = h.holders.size + 1) := by
  rcases t.defaultValue_cases ty with hmade | ⟨w, hno, hplain⟩
  · rw [hmade] at hrun
    cases hrun
    exact .inr ⟨rfl, Array.size_push _⟩
  · rw [hplain] at hrun
    cases hrun
    exact .inl ⟨rfl, hno⟩

theorem OwnHolders.insert {h₀ : Heap} {slots : Dict String Value} {name : String} {ty : TypeExpr} {v : Value}
    (hown : OwnHolders h₀ slots h) (hsize : h₀.holders.size ≤ h.holders.size)
    (hrun : t.defaultValue ty h = .ok v h') : OwnHolders h₀ (slots.insert name v) h' := by
  rcases defaultValue_holder hrun with ⟨rfl, hno⟩ | ⟨rfl, hmade⟩
  · -- no holder: what holders there are, the other slots hold
    have hold : ∀ other i, (slots.insert name v).find? other = some (.holder i) →
        slots.find? other = some (.holder i) := by
      intro other i hfound
      by_cases ho : other = name
      · rw [ho, Dict.find?_insert_self] at hfound
        exact absurd (Option.some.inj hfound) (hno i)
      · rwa [Dict.find?_insert_of_ne _ _ ho] at hfound
    exact ⟨fun other i hi => hown.new other i (hold other i hi),
      fun a b i ha hb => hown.apart a b i (hold a i ha) (hold b i hb)⟩
  · have hcases : ∀ other i, (slots.insert name (.holder h.holders.size)).find? other = some (.holder i) →
        (other = name ∧ i = h.holders.size) ∨ slots.find? other = some (.holder i) := by
      intro other i hfound
      by_cases ho : other = name
      · rw [ho, Dict.find?_insert_self] at hfound
        cases hfound
        exact .inl ⟨ho, rfl⟩
      · rw [Dict.find?_insert_of_ne _ _ ho] at hfound
        exact .inr hfound
    refine ⟨fun other i hi => ?_, fun a b i ha hb => ?_⟩
    · rcases hcases other i hi with ⟨-, rfl⟩ | hold
      · omega
      · have := hown.new other i hold
        omega
    · -- the new holder is in no other slot
      rcases hcases a i ha with ⟨hname, hi⟩ | holda <;> rcases hcases b i hb with ⟨hname', hi'⟩ | holdb
      · rw [hname, hname']
      · exact absurd (hown.new b i holdb).2 (by omega)
      · exact absurd (hown.new a i holda).2 (by omega)
      · exact hown.apart a b i holda holdb

theorem OwnHolders.addDefaults {h₀ : Heap} {slots slots' : Dict String Value} {fields : List Field}
    (hown : OwnHolders h₀ slots h) (hsize : h₀.holders.size ≤ h.holders.size)
    (hrun : t.addDefaults slots fields h = .ok slots' h') : OwnHolders h₀ slots' h' := by
  induction fields generalizing slots h with
  | nil =>
    cases hrun
    exact hown
  | cons f fs ih =>
    unfold ClassTable.addDefaults at hrun
    split at hrun
    · exact ih hown hsize hrun
    · obtain ⟨v, h₁, hdefault, hrest⟩ := bind_eq_ok_iff.1 hrun
      refine ih (hown.insert hsize hdefault) ?_ hrest
      rcases defaultValue_holder hdefault with ⟨rfl, -⟩ | ⟨-, hmade⟩
      · exact hsize
      · omega

theorem OwnHolders.empty (h : Heap) : OwnHolders h Dict.empty h := by
  refine ⟨fun name i hi => ?_, fun name other i hi => ?_⟩ <;> rw [Dict.find?_empty] at hi <;> cases hi

/-! ## New objects -/

/-- The object is behind all others and has a slot for every name of an instance field along the chain. A
slot holds the default of the field that the first class with such a field declares, made for this object. -/
structure FreshSlots (t : ClassTable) (chain : List Class) (h : Heap) (ref : Ref) (h' : Heap) : Prop where
  place : ref.index = h.objects.size
  size : h'.objects.size = h.objects.size + 1
  intact : h.Intact h'
  names : ∀ name, (h'.slot? ref name).isSome = true ↔ ∃ d ∈ chain, ∃ f ∈ d.instanceFields, f.name = name
  nearest : ∀ before d after name f, chain = before ++ d :: after →
    (∀ e ∈ before, ∀ g ∈ e.instanceFields, g.name ≠ name) →
    d.instanceFields.find? (·.name = name) = some f →
    ∃ h₁ v h₂, h.Intact h₁ ∧ t.defaultValue f.type h₁ = .ok v h₂ ∧ h₂.Intact h' ∧
      h'.slot? ref name = some v
  holders : OwnHolders h (h'.slots ref) h'

theorem mem_chainFields {f : Field} : f ∈ chainFields chain ↔ ∃ d ∈ chain, f ∈ d.instanceFields :=
  List.mem_flatMap

/-- The first field of a name along the chain is that of the first class that has one. -/
theorem chainFields_find? {before after : List Class} {name : String} {f : Field}
    (hbefore : ∀ e ∈ before, ∀ g ∈ e.instanceFields, g.name ≠ name)
    (hf : d.instanceFields.find? (·.name = name) = some f) :
    (chainFields (before ++ d :: after)).find? (·.name = name) = some f := by
  have hnone : (chainFields before).find? (·.name = name) = none := by
    rw [List.find?_eq_none]
    intro g hg
    obtain ⟨e, he, hge⟩ := mem_chainFields.1 hg
    simpa using hbefore e he g hge
  unfold chainFields at hnone ⊢
  rw [List.flatMap_append, List.find?_append, hnone, List.flatMap_cons, List.find?_append, hf]
  rfl

/-- The names of the fields are the names of the slots. -/
theorem addDefaults_isSome_iff {slots : Dict String Value} {fields : List Field} {name : String}
    (hrun : t.addDefaults .empty fields h = .ok slots h') :
    (slots.find? name).isSome = true ↔ ∃ f ∈ fields, f.name = name := by
  cases addDefaults_slot (Dict.find?_empty name) hrun with
  | missing hnone hslot =>
    rw [hslot]
    refine iff_of_false nofun ?_
    rintro ⟨f, hf, hname⟩
    exact List.find?_eq_none.1 hnone f hf (decide_eq_true hname)
  | default f hfield _ _ v _ hslot =>
    rw [hslot]
    exact iff_of_true rfl ⟨f, List.mem_of_find?_eq_some hfield, by simpa using List.find?_some hfield⟩

/-- Instantiation gives a new object whatever the heap. -/
theorem instantiate_slotted (hc : t.find? c.id = some c) (hs : t.Slotted c)
    (hchain : t.superclassChain c = .ok chain) (h : Heap) :
    ∃ h', t.instantiate c.id h = .ok (.object ⟨c.id, h.objects.size⟩) h' ∧
      t.FreshSlots chain h ⟨c.id, h.objects.size⟩ h' := by
  obtain ⟨slots, h₁, hslots, hsame⟩ := addDefaults_eq_ok (t := t) Dict.empty (chainFields chain) h
  have hplain : t.instantiatePlain c h =
      .ok (.object ⟨c.id, h.objects.size⟩) (h₁.allocObject c.id slots).2 := by
    unfold instantiatePlain
    simp only [hs.string, hs.holder, hs.list, hs.map, Bool.false_eq_true, if_false]
    rw [bind_of_ok (ofExcept_eq_ok_iff.2 ⟨hchain, rfl⟩), bind_of_ok hslots, ← hsame]
    rfl
  have hmade : t.instantiate c.id h = t.instantiatePlain c h := by
    rw [instantiate_of_kind hc hs.kind, hs.concrete, if_neg Bool.false_ne_true]
  have hread : (h₁.allocObject c.id slots).2.slots ⟨c.id, h.objects.size⟩ = slots := by
    simp [Heap.slots, Heap.allocObject, ← hsame]
  have hslot : ∀ name,
      (h₁.allocObject c.id slots).2.slot? ⟨c.id, h.objects.size⟩ name = slots.find? name := fun name => by
    rw [Heap.slot?, hread]
  refine ⟨_, hmade.trans hplain, rfl, by simp [Heap.allocObject, hsame], ?_, fun name => ?_, ?_, ?_⟩
  · exact (t.instantiate_intact c.id).ok (hmade.trans hplain)
  · rw [hslot, addDefaults_isSome_iff hslots]
    constructor
    · rintro ⟨f, hf, hname⟩
      obtain ⟨d, hd, hf⟩ := mem_chainFields.1 hf
      exact ⟨d, hd, f, hf, hname⟩
    · rintro ⟨d, hd, f, hf, hname⟩
      exact ⟨f, mem_chainFields.2 ⟨d, hd, hf⟩, hname⟩
  · rintro before d after name f rfl hbefore hf
    obtain ⟨h₂, v, h₃, hmoved, hdefault, hrest, hfound⟩ :=
      addDefaults_default (Dict.find?_empty name) (chainFields_find? hbefore hf) hslots
    exact ⟨h₂, v, h₃, hmoved, hdefault, Heap.Intact.trans _ _ _ hrest (Heap.allocObject_intact _ _ _),
      (hslot name).trans hfound⟩
  · have hown := (OwnHolders.empty h).addDefaults (Nat.le_refl _) hslots
    rw [hread]
    exact ⟨hown.new, hown.apart⟩

/-! ## Superclasses on the chain -/

/-- The superclass of a class of the chain is on the chain. -/
theorem superclass_on_chain (hchain : t.superclassChain c = .ok chain) (hd : d ∈ chain) {up : ClassId}
    (hup : d.superclassId? = some up) : ∃ p ∈ chain, p.id = up := by
  obtain ⟨n, ds, hds, hsuffix⟩ := chainFrom_suffix hchain hd
  cases n with
  | zero => cases hds
  | succ n =>
    rcases chainFrom_succ_eq_ok hds with ⟨hnone, -⟩ | ⟨s, p, ps, hs, hp, hps, rfl⟩
    · rw [hup] at hnone
      cases hnone
    · cases hup.symm.trans hs
      obtain ⟨rest, rfl⟩ := chainFrom_eq_cons hps
      exact ⟨p, hsuffix.subset (by simp), find?_id (lookup_eq_ok_iff.1 hp)⟩

theorem superclassChain_suffix {own : List Class} (hchain : t.superclassChain c = .ok chain)
    (hd : d ∈ chain) (hown : t.superclassChain d = .ok own) : own <:+ chain := by
  obtain ⟨n, ds, hds, hsuffix⟩ := chainFrom_suffix hchain hd
  rw [chainFrom_unique hown hds]
  exact hsuffix

end ClassTable

/-! ## Models of classes of the chain -/

/-- A synthetic class of the chain has a class or a parameterization for its superclass, if it has one. -/
def NamesSuperclasses (chain : List Class) : Prop :=
  ∀ d ∈ chain, d.synthetic = true → ∀ up, d.superclass = some up → up.raw?.isSome = true

/-- From a type of a class of the chain a search goes on along the chain. -/
theorem way_along_chain {t : ClassTable} {c : Class} {chain : List Class} {p q : Registry × TypeExpr}
    (hc : t.find? c.id = some c) (hchain : t.superclassChain c = .ok chain)
    (hnames : NamesSuperclasses chain) (ht : t.Within p.1.classes) (hway : ReflTransGen GivesWay p q)
    (hp : ∃ d ∈ chain, p.2.raw? = some d.id) : ∃ d ∈ chain, q.2.raw? = some d.id := by
  induction hway with
  | refl => exact hp
  | tail hway hstep ih =>
    obtain ⟨d, hd, hraw⟩ := ih
    obtain ⟨raw, args, e, up, hparts, he, hsynthetic, hup, hresolve⟩ := hstep
    have hfound := found_of_chainFrom hc hchain d hd
    obtain rfl : d = e := by
      cases (raw?_of_parts? hparts).symm.trans hraw
      exact Option.some.inj (((Within.trans _ _ _ ht (way_within hway)) _ _ hfound).symm.trans he)
    obtain ⟨s, hs⟩ := Option.isSome_iff_exists.1 (hnames d hd hsynthetic up hup)
    have hsuper : d.superclassId? = some s := by rw [Class.superclassId?, hup, Option.bind_some, hs]
    obtain ⟨p', hp', rfl⟩ := superclass_on_chain hchain hd hsuper
    obtain ⟨u, hu, -⟩ := onTable_eq_ok hresolve
    exact ⟨p', hp', raw?_of_resolve hs hu⟩

section

variable {config : Config} {ops : List Operation} {c : Class} {chain : List Class} {ty : TypeExpr} {m : Model}
  {k : Contents} {r' : Registry}

/-- A lookup for a class of the chain is answered with a model of such a class. -/
theorem model_on_chain (hc : (reached config ops).registry.classes.find? c.id = some c)
    (hchain : (reached config ops).registry.classes.superclassChain c = .ok chain)
    (hnames : NamesSuperclasses chain) (hty : ty.raw? = some c.id)
    (hm : Registry.ofType ty (reached config ops).registry = .ok m r') : m.raw ∈ chain.map (·.id) := by
  obtain ⟨concrete, k, start, found, ha⟩ := ofType_answered (reached_valid config ops) hm
  obtain ⟨s, last, args, d, hway, hparts, -⟩ := modelWithin_ends ha.model
  have hself : c ∈ chain := by
    obtain ⟨rest, rfl⟩ := chainFrom_eq_cons hchain
    exact List.mem_cons_self
  obtain ⟨d, hd, hraw⟩ := way_along_chain hc hchain hnames ha.started.within hway
    ⟨c, hself, raw?_of_resolve hty ha.answer⟩
  have hid : m.raw = d.id := Option.some.inj ((raw?_of_parts? hparts).symm.trans hraw)
  exact List.mem_map.2 ⟨d, hd, hid.symm⟩

/-- A field property of a model of such a class is made of a field of the chain. -/
theorem field_on_chain (hc : (reached config ops).registry.classes.find? c.id = some c)
    (hchain : (reached config ops).registry.classes.superclassChain c = .ok chain)
    (hm : Registry.ofType ty (reached config ops).registry = .ok m r') (hk : r'.contents? m = some k)
    (hraw : m.raw ∈ chain.map (·.id)) {p : Property} (hp : p ∈ k.properties) (hfield : p.isOfField = true) :
    ∃ f ∈ chainFields chain, ∃ S ty stage, Scan.MadeOf S f ty stage p r' := by
  obtain ⟨concrete, k', start, found, ha⟩ := ofType_answered (reached_valid config ops) hm
  have hmodel : ModelOf r' m.cls m k := .of_lookup hm hk
  have hwithin : (reached config ops).registry.classes.Within r'.classes :=
    Within.trans _ _ _ (Within.trans _ _ _ ha.started.within ha.grown.within) ha.step.classes
  have hc' := hwithin _ _ hc
  have hchain' := superclassChain_of_chainFrom hc' (hwithin.chainFrom (Nat.le_refl _) hchain)
  -- the class of the model is the one of the chain that has its id
  have hmem : m.cls ∈ chain := by
    obtain ⟨d, hd, hid⟩ := List.mem_map.1 hraw
    have hfound := found_of_chainFrom hc' hchain' d hd
    rw [hid, hmodel.raw, hmodel.declared] at hfound
    cases hfound
    exact hd
  have hreached : (reached config (ops ++ [.ofType ty])).registry = r' := reached_ofType hm
  rw [← hreached] at hmodel
  obtain ⟨own, hown, f, hf, ty', stage, hmade⟩ := hmodel.origin_field hp hfield
  rw [hreached] at hown hmade
  obtain ⟨d, hd, hfd⟩ := mem_chainFields.1 hf
  have hd' := (superclassChain_suffix hchain' hmem hown).subset hd
  exact ⟨f, mem_chainFields.2 ⟨d, hd', hfd⟩, _, ty', stage, hmade⟩

end

/-- The slot that a property of a field is kept in. -/
def Access.slotName? : Access → Option String
  | .slot name | .finalSlot name | .component name | .holder name => some name
  | .accessors _ _ | .index _ _ | .entry _ => none

theorem Scan.MadeOf.slotName {S : Scan} {f : Field} {ty : TypeExpr} {stage r : Registry} {p : Property}
    (h : S.MadeOf f ty stage p r) : p.access.slotName? = some f.name := by
  by_cases hheld : stage.classes.isAssignable .holder ty.rawClass = true
  · rw [h.held hheld]
    rfl
  · rw [(h.slotted hheld).1, Scan.slotAccess]
    split
    · rfl
    · split <;> rfl

/-- A class that is no primitive, enumeration, interface or array, is not abstract, neither the class of texts
nor of holders, no list and no map, and has a chain of superclasses: instantiation gives a new object with slots
for the instance fields along the chain and no others, each with the default of the nearest field of its name. A
lookup for a type of the class that is answered gives a model with contents. Each of its properties that stand
for fields is kept in one of these slots, if the model is one of a class of the chain. So it is if the synthetic
classes of the chain have classes for their superclasses. -/
theorem instance_slots_scanned (config : Config) (ops : List Operation) {c : Class} {chain : List Class}
    (hc : (reached config ops).registry.classes.find? c.id = some c)
    (hs : (reached config ops).registry.classes.Slotted c)
    (hchain : (reached config ops).registry.classes.superclassChain c = .ok chain) (h : Heap) :
    let r := (reached config ops).registry
    let ref : Ref := ⟨c.id, h.objects.size⟩
    ∃ h', r.classes.instantiate c.id h = .ok (.object ref) h' ∧ r.classes.FreshSlots chain h ref h' ∧
      ∀ ty m r', ty.raw? = some c.id → Registry.ofType ty r = .ok m r' →
        (NamesSuperclasses chain → m.raw ∈ chain.map (·.id)) ∧
        ∃ k, r'.contents? m = some k ∧
          (m.raw ∈ chain.map (·.id) → ∀ p ∈ k.properties, p.isOfField = true →
            p.access.slotName? = some p.name ∧ (h'.slot? ref p.name).isSome = true) := by
  intro r ref
  obtain ⟨h', hmade, hfresh⟩ := instantiate_slotted hc hs hchain h
  refine ⟨h', hmade, hfresh, fun ty m r' hty hm => ⟨fun hnames => model_on_chain hc hchain hnames hty hm, ?_⟩⟩
  obtain ⟨concrete, k, start, found, ha⟩ := ofType_answered (reached_valid config ops) hm
  refine ⟨k, ha.contents, fun hraw p hp hfield => ?_⟩
  obtain ⟨f, hf, S, ty', stage, hmadeOf⟩ := field_on_chain hc hchain hm ha.contents hraw hp hfield
  obtain ⟨d, hd, hfd⟩ := mem_chainFields.1 hf
  rw [hmadeOf.name]
  exact ⟨hmadeOf.slotName, (hfresh.names f.name).2 ⟨d, hd, f, hfd, rfl⟩⟩

/-- Something that is counted, with a state that can be observed. -/
def meter : Declaration :=
  Declaration.publicField
    (Declaration.publicField (.plain ⟨"Meter"⟩) "count" (.named PrimitiveKind.int32.primitiveId))
    "state" (.apply .holder [.named .string])

/-- It counts further, up to a limit that is the same for all. -/
def longMeter : Declaration :=
  Declaration.staticField
    (Declaration.publicField (Declaration.withSuperclass (.plain ⟨"LongMeter"⟩) (.named meter.id))
      "count" (.named PrimitiveKind.int64.primitiveId))
    "limit" (.named PrimitiveKind.int64.primitiveId)

def meterProxy : Declaration :=
  Declaration.markSynthetic (Declaration.withSuperclass (.plain ⟨"MeterProxy"⟩) (.named longMeter.id))

def meterRun : List Operation := [meter, longMeter, meterProxy].map fun d => .define d.draft

def meterChain : List Class :=
  [meterProxy.draft.normalize, longMeter.draft.normalize, meter.draft.normalize, .bare .object .plain]

theorem meterProxy_slotted : (reached {} meterRun).registry.classes.Slotted meterProxy.draft.normalize where
  kind := .inl rfl
  concrete := rfl
  string := by decide
  holder := by decide
  list := by decide +kernel
  map := by decide +kernel

theorem meterProxy_chain :
    (reached {} meterRun).registry.classes.superclassChain meterProxy.draft.normalize = .ok meterChain := rfl

/-- The proxy of a meter has a slot for the count of its superclass and one for the state of the class above,
and the model of its superclass has just these properties. -/
theorem instance_slots_scanned_meter :
    let r := (reached {} meterRun).registry
    let c := meterProxy.draft.normalize
    let ref : Ref := ⟨c.id, 0⟩
    r.classes.find? c.id = some c ∧ r.classes.Slotted c ∧ r.classes.superclassChain c = .ok meterChain ∧
      NamesSuperclasses meterChain ∧
      ∃ h' m r' k, r.classes.instantiate c.id .empty = .ok (.object ref) h' ∧
        h'.slot? ref "count" = some (.int64 0) ∧ (h'.slot? ref "state").isSome = true ∧
        h'.slot? ref "limit" = none ∧
        Registry.of c.id r = .ok m r' ∧ m.raw = longMeter.id ∧ r'.contents? m = some k ∧
        k.properties.map (·.name) = ["count", "state"] ∧
        ∀ p ∈ k.properties, p.access.slotName? = some p.name ∧ (h'.slot? ref p.name).isSome = true := by
  intro r c ref
  have hnames : NamesSuperclasses meterChain := by
    intro d hd _ up hup
    have hall : meterChain.all fun d => d.superclass.all (·.raw?.isSome) := by decide +kernel
    have hd := List.all_eq_true.1 hall d hd
    rwa [hup] at hd
  obtain ⟨h', hmade, hfresh, hmodels⟩ :=
    instance_slots_scanned {} meterRun (c := c) rfl meterProxy_slotted meterProxy_chain .empty
  have hlookup : outcome (do
      let m ← Registry.of c.id
      let k ← m.getContents
      return decide (m.raw = longMeter.id ∧ k.properties.map (·.name) = ["count", "state"]) &&
        k.properties.all Property.isOfField) r = .ok true := by decide +kernel
  obtain ⟨m, r', hm, hrest⟩ := bind_eq_ok_iff.1 (eq_ok_of_outcome hlookup)
  obtain ⟨k', r'', hget, hpure⟩ := bind_eq_ok_iff.1 hrest
  obtain ⟨hboth, hfields⟩ := Bool.and_eq_true_iff.1 (EStateM.Result.ok.inj hpure).1
  obtain ⟨hraw, hproperties⟩ := of_decide_eq_true hboth
  obtain ⟨hon, k, hk, hslots⟩ := hmodels (.named c.id) m r' rfl hm
  obtain rfl : k = k' := by
    rw [Model.getContents_of_initialized hk] at hget
    exact (EStateM.Result.ok.inj hget).1
  have hproxy : ∀ e ∈ [c], ∀ g ∈ e.instanceFields, g.name ≠ "count" := by
    intro e he g hg
    cases List.mem_singleton.1 he
    cases hg
  obtain ⟨h₁, v, h₂, -, hdefault, -, hcount⟩ := hfresh.nearest [c] longMeter.draft.normalize _ "count" _ rfl
    hproxy rfl
  have hlong : r.classes.find? PrimitiveKind.int64.primitiveId = some _ := eq_some_getD (by decide +kernel)
  have hkind : ((r.classes.find? PrimitiveKind.int64.primitiveId).getD default).kind =
      .primitive .int64 false := by decide +kernel
  have hzero : v = .int64 0 :=
    (EStateM.Result.ok.inj (hdefault.symm.trans (defaultValue_primitive hlong hkind))).1
  have hstate := (hfresh.names "state").2
    ⟨meter.draft.normalize, by simp [meterChain], _, List.mem_cons_of_mem _ List.mem_cons_self, rfl⟩
  have hlimit : h'.slot? ref "limit" = none := by
    refine Option.not_isSome_iff_eq_none.1 fun hsome => ?_
    obtain ⟨d, hd, f, hf, hname⟩ := (hfresh.names "limit").1 hsome
    have hall : meterChain.all fun d => d.instanceFields.all fun f => f.name ≠ "limit" := by decide +kernel
    have := List.all_eq_true.1 (List.all_eq_true.1 hall d hd) f hf
    exact absurd hname (of_decide_eq_true this)
  refine ⟨rfl, meterProxy_slotted, meterProxy_chain, hnames, h', m, r', k, hmade, hzero ▸ hcount, hstate,
    hlimit, hm, hraw, hk, hproperties, fun p hp => ?_⟩
  exact hslots (hon hnames) p hp (List.all_eq_true.1 hfields p hp)

/-- A generated class the superclass of which is its own type parameter, bounded by a class with a count. Its
chain of superclasses is the class alone, but its model is that of the bound. -/
theorem slot_missing :
    let draft := Declaration.typeParam (.plain ⟨"Generated"⟩) "T" [.named meter.id]
    let c := (Declaration.markSynthetic (draft.withSuperclass (draft.var "T"))).draft
    let ref : Ref := ⟨c.id, 0⟩
    let r := (reached {} [.define meter.draft, .define c]).registry
    r.classes.find? c.id = some c ∧ r.classes.Slotted c ∧ r.classes.superclassChain c = .ok [c] ∧
      ∃ h' m r' k p, r.classes.instantiate c.id .empty = .ok (.object ref) h' ∧
        Registry.of c.id r = .ok m r' ∧ r'.contents? m = some k ∧ p ∈ k.properties ∧
        p.isOfField = true ∧ p.access.slotName? = some "count" ∧ h'.slot? ref "count" = none := by
  intro draft c ref r
  have hlookup : outcome (do
      let m ← Registry.of c.id
      let k ← m.getContents
      return k.properties.any fun p => p.isOfField && decide (p.access.slotName? = some "count")) r =
      .ok true := by decide +kernel
  obtain ⟨m, r', hm, hrest⟩ := bind_eq_ok_iff.1 (eq_ok_of_outcome hlookup)
  obtain ⟨k, r'', hget, hpure⟩ := bind_eq_ok_iff.1 hrest
  obtain ⟨p, hp, hboth⟩ := List.any_eq_true.1 (EStateM.Result.ok.inj hpure).1
  obtain ⟨hfield, hslot⟩ := Bool.and_eq_true_iff.1 hboth
  obtain ⟨concrete, k', start, found, ha⟩ := ofType_answered (reached_valid {} _) hm
  obtain rfl : k' = k := by
    rw [Model.getContents_of_initialized ha.contents] at hget
    exact (EStateM.Result.ok.inj hget).1
  have hmade : r.classes.instantiate c.id .empty = .ok (.object ref) _ := eq_ok_of_outcome (by decide +kernel)
  exact ⟨rfl, ⟨.inl rfl, rfl, by decide, by decide, by decide +kernel, by decide +kernel⟩, rfl, _, m, r', k', p,
    hmade, hm, ha.contents, hp, hfield, of_decide_eq_true hslot, by decide +kernel⟩

end Introspect
