import Introspect.Proofs.Models.GeneratedSetters
import Introspect.Proofs.Models.KeptSlots

/-!
Final fields of classes with generated accessors.

That a field is final is looked at when the field itself is scanned. The slot of its name may be written all
the same: by a generated setter, or through another field of that name.

* `Property.Writes`: a write through the property goes to the slot.
* `AccessorModel.write_keeps`, `AccessorModel.set_keeps`, `AccessorModel.slotStays`: one write through a
  property or under a name, and any number of them.
* `final_field_stays`: when a final field keeps its value.
-/

namespace Introspect

open Registry ClassTable Heap

/-! ## What a property writes -/

/-- A write through the property to an object of the class goes to the slot of the name: the property is that
slot, or the holder in it, or its setter runs a body that writes the slot. -/
def Property.Writes (p : Property) (t : ClassTable) (id : ClassId) (slot : String) : Prop :=
  match p.access with
  | .slot name | .holder name => name = slot
  | .accessors _ setter =>
    ∃ types, t.supertypes id = .ok types ∧ setter.bodyAmong types 1 = some (MethodBody.writeSlot slot)
  | .finalSlot _ | .component _ | .index _ _ | .entry _ => False

/-- A setter body is that of one slot. -/
theorem writeSlot_injective {a b : String} (h : MethodBody.writeSlot a = MethodBody.writeSlot b) : a = b := by
  let ref : Ref := ⟨.object, 0⟩
  let blank : Heap := { Heap.empty with objects := #[.empty] }
  have hwritten (name : String) :
      after (MethodBody.writeSlot name (.object ref) [.null]) blank = blank.setSlot ref name .null := rfl
  have hin : ref.index < blank.objects.size := by decide
  have hslot : (blank.setSlot ref b .null).slot? ref a = some .null := by
    rw [← hwritten, ← h, hwritten, Heap.slot?_setSlot hin, if_pos rfl]
  rw [Heap.slot?_setSlot hin] at hslot
  by_contra hne
  rw [if_neg hne] at hslot
  cases hslot

/-- Such a write leaves the value in the slot, or goes to the holder in it. -/
theorem Property.Writes.write_eq {p : Property} {s : Store} {ref : Ref} {slot : String}
    (hw : p.Writes s.registry.classes ref.cls slot) (hlive : s.registry.live = true) (v : Value) :
    p.access = .holder slot ∨
      p.write (.object ref) v s = .ok (.object ref) { s with heap := s.heap.setSlot ref slot v } := by
  unfold Property.Writes at hw
  cases haccess : p.access with
  | accessors getter setter =>
    rw [haccess] at hw
    obtain ⟨types, htypes, hbody⟩ := hw
    have hcall : setter.call (.object ref) [v] s =
        .ok .null { s with heap := s.heap.setSlot ref slot v } := by
      rw [setter.call_eq hlive rfl htypes, List.length_singleton, hbody]
      rfl
    right
    unfold Property.write
    simp only [haccess]
    rw [bind_of_ok (discard_of_ok hcall)]
    rfl
  | slot name =>
    rw [haccess] at hw
    obtain rfl : name = slot := hw
    right
    unfold Property.write
    simp only [haccess]
    rfl
  | holder name =>
    rw [haccess] at hw
    obtain rfl : name = slot := hw
    exact .inl rfl
  | finalSlot | component | index | entry => rw [haccess] at hw; cases hw

/-- So a slot that is missing is there afterwards. -/
theorem Property.Writes.slot_made {p : Property} {s : Store} {ref : Ref} {slot : String}
    (hw : p.Writes s.registry.classes ref.cls slot) (hlive : s.registry.live = true)
    (hin : ref.index < s.heap.objects.size) (hfree : s.heap.slot? ref slot = none) (v : Value) :
    ((after (p.write (.object ref) v) s).heap.slot? ref slot).isSome = true := by
  rcases hw.write_eq hlive v with haccess | hwrite
  · have hnull : s.heap.slotOrNull ref slot = .null := by rw [Heap.slotOrNull, hfree]; rfl
    have hwrite : p.write (.object ref) v s = .ok (.object ref)
        { s with heap := (s.heap.allocHolder v).2.setSlot ref slot (s.heap.allocHolder v).1 } := by
      rw [Property.write, haccess]
      exact Store.onHeap_eq_ok_iff.2 ⟨_, writeHolder_eq_ok_iff.2 ⟨rfl, .inr ⟨hnull, rfl⟩⟩, rfl⟩
    have hin' : ref.index < (s.heap.allocHolder v).2.objects.size := hin
    rw [after_of_ok hwrite, Heap.slot?_setSlot hin', if_pos rfl, Option.isSome_some]
  · rw [after_of_ok hwrite, Heap.slot?_setSlot hin, if_pos rfl, Option.isSome_some]

/-- The name of a property finds it. -/
theorem ModelOf.find?_property {config : Config} {ops : List Operation} {c : Class} {m : Model} {k : Contents}
    {p : Property} (h : ModelOf (reached config ops).registry c m k) (hp : p ∈ k.properties) :
    k.properties.find? (·.name = p.name) = some p := by
  obtain ⟨config', r, r', hv, -, hrun, -⟩ := h.scanned (h.kind_of_property hp)
  obtain ⟨types, chain, n, -, -, hsourced⟩ := Scan.run_sourced hv hrun
  exact find?_of_ordered hsourced.ordered hp

/-! ## Models of classes with generated accessors -/

/-- A model of a class that is no record. Writes go to instances of the given classes, its own one among them, the
methods of which are generated accessors. -/
structure AccessorModel (r : Registry) (c : Class) (m : Model) (k : Contents)
    (receivers : ClassId → Prop) : Prop where
  model : ModelOf r c m k
  mutable : c.kind ≠ .record
  own : receivers c.id
  accessors : ∀ id, receivers id → AccessorsOnly r.classes id

namespace AccessorModel

variable {config : Config} {ops : List Operation} {c : Class} {m : Model} {k : Contents}
  {receivers : ClassId → Prop} {p : Property} {this v : Value} {name : String} {s : Store} {id : ClassId}

/-- The ways a property of the model is kept. -/
theorem access (h : AccessorModel (reached config ops).registry c m k receivers) (hp : p ∈ k.properties) :
    (∃ getter setter, p.access = .accessors getter setter) ∨ p.access = .slot p.name ∨
      p.access = .finalSlot p.name ∨ p.access = .holder p.name := by
  rcases h.model.origin hp with haccessors | ⟨chain, -, f, -, ty, stage, hmade⟩
  · exact .inl haccessors
  · have hrecord : c.isRecord = false := decide_eq_false h.mutable
    rw [hmade.name]
    by_cases hheld : stage.classes.isAssignable .holder ty.rawClass = true
    · exact .inr (.inr (.inr (hmade.held hheld)))
    · have hslotted := (hmade.slotted hheld).1
      simp only [Scan.slotAccess, hrecord, Bool.false_eq_true, if_false] at hslotted
      cases hfinal : f.isFinal with
      | true => rw [hfinal] at hslotted; exact .inr (.inr (.inl hslotted))
      | false => rw [hfinal] at hslotted; exact .inr (.inl hslotted)

/-- A write through a property that does not write the slot. -/
theorem write_keeps (h : AccessorModel (reached config ops).registry c m k receivers) (hp : p ∈ k.properties)
    (hthis : this.runtimeClass? = some id) (hid : receivers id)
    (hnot : ¬ p.Writes (reached config ops).registry.classes id name)
    (hs : s.registry = (reached config ops).registry) (v : Value) :
    s.KeepsSlot name (after (p.write this v) s) := by
  unfold Property.Writes at hnot
  unfold Property.write
  rcases h.access hp with ⟨getter, setter, haccess⟩ | haccess | haccess | haccess
  · simp only [haccess] at hnot ⊢
    obtain ⟨types, htypes, hgenerated⟩ := h.accessors _ hid
    have hcalled : s.KeepsSlot name (after (setter.call this [v]) s) := by
      unfold after
      rcases setter.call_cases hthis (hs ▸ htypes) [v] with ⟨e, hcall⟩ | ⟨body, hbody, hcall⟩
      · rw [hcall]
        exact Store.KeepsSlot.refl name s
      · obtain ⟨slot, rfl, -⟩ := h.model.setter_writes (h.accessors _ h.own) hp haccess hgenerated hbody
        have hne : name ≠ slot := by
          rintro rfl
          exact hnot ⟨types, htypes, hbody⟩
        rw [hcall]
        exact Store.onHeap_keepsSlot (methodBody_keepsSlot hne this [v]) s
    rwa [after_bind_pure, after_discard]
  · simp only [haccess] at hnot ⊢
    exact Store.onHeap_keepsSlot (writeSlot_keepsSlot (Ne.symm hnot) this v) s
  · simp only [haccess]
    exact Store.KeepsSlot.refl name s
  · simp only [haccess] at hnot ⊢
    exact Store.onHeap_keepsSlot (writeHolder_keepsSlot (Ne.symm hnot) this v) s

/-- One write under a name. The registry of a model with scanned properties stays as it is, so that the same
property is found again. -/
theorem set_keeps (h : AccessorModel (reached config ops).registry c m k receivers)
    (hnot : ∀ id, receivers id → ∀ p ∈ k.properties,
      ¬ p.Writes (reached config ops).registry.classes id name)
    (hthis : ∀ id, this.runtimeClass? = some id → receivers id)
    (hs : m.kind = .object ∨ m.kind = .generic → s.registry = (reached config ops).registry)
    (written : String) (v : Value) :
    s.heap.KeepsSlot name (after (m.set this written v) s).heap ∧
      (m.kind = .object ∨ m.kind = .generic →
        (after (m.set this written v) s).registry = (reached config ops).registry) := by
  by_cases hkind : m.kind = .object ∨ m.kind = .generic
  · have hr := hs hkind
    have hset : m.set this written v s =
        setProperty this (k.properties.find? (·.name = written)) v s :=
      Model.set_of_property (ModelOf.property?_eq (hr ▸ h.model) hkind written) this v
    have hafter : after (m.set this written v) s =
        after (setProperty this (k.properties.find? (·.name = written)) v) s := by
      unfold after
      rw [hset]
    have hkept : s.KeepsSlot name (after (m.set this written v) s) := by
      rw [hafter]
      cases hfind : k.properties.find? (·.name = written) with
      | none => exact Store.KeepsSlot.refl name s
      | some p =>
        have hp := List.mem_of_find?_eq_some hfind
        cases hclass : this.runtimeClass? with
        | none =>
          obtain rfl : this = .null := by cases this <;> first | rfl | cases hclass
          exact Store.KeepsSlot.refl name s
        | some id =>
          have hid := hthis id hclass
          rcases after_setProperty p this v s with hsame | hwritten
          · rw [hsame]
            exact Store.KeepsSlot.refl name s
          · rw [hwritten]
            exact h.write_keeps hp hclass hid (hnot id hid p hp) hr v
    exact ⟨hkept.heap, fun _ => hkept.registry.trans hr⟩
  · exact ⟨Model.set_unscanned hkind this written v name s, fun hyes => absurd hyes hkind⟩

/-- Any number of writes, when no property writes the slot. -/
theorem slotStays (h : AccessorModel (reached config ops).registry c m k receivers)
    (hnot : ∀ id, receivers id → ∀ p ∈ k.properties,
      ¬ p.Writes (reached config ops).registry.classes id name) :
    m.SlotStays receivers (reached config ops).registry name := by
  intro heap writes hwrites
  refine (Model.setAll_induct (I := fun s => heap.KeepsSlot name s.heap ∧
    (m.kind = .object ∨ m.kind = .generic → s.registry = (reached config ops).registry))
    (fun w hw s hs => ?_) (s := ⟨heap, (reached config ops).registry⟩)
    ⟨Heap.KeepsSlot.refl heap, fun _ => rfl⟩).1
  obtain ⟨hkept, hr⟩ := h.set_keeps hnot (hwrites w hw) hs.2 w.2.1 w.2.2
  exact ⟨Heap.KeepsSlot.trans _ _ _ hs.1 hkept, hr⟩

/-- When a property writes the slot, one write of a value that it takes is enough. -/
theorem not_writes (h : AccessorModel (reached config ops).registry c m k receivers)
    (hlive : (reached config ops).registry.live = true)
    (hstays : m.SlotStays receivers (reached config ops).registry name) (hid : receivers id)
    (hp : p ∈ k.properties) : ¬ p.Writes (reached config ops).registry.classes id name := by
  intro hwrites
  obtain ⟨v, haccepted, hnull⟩ := exists_accepted hlive p.model
  let ref : Ref := ⟨id, 0⟩
  let blank : Heap := { Heap.empty with objects := #[.empty] }
  let s : Store := ⟨blank, (reached config ops).registry⟩
  have htaken : ignoresWrite p (.object ref) v = false := by
    unfold ignoresWrite
    cases hv : v.isNull with
    | false => rfl
    | true => rw [hnull hv]; rfl
  have hset : m.set (.object ref) p.name v s = p.write (.object ref) v s := by
    rw [Model.set_of_property (s := s) (h.model.property?_eq (h.model.kind_of_property hp) p.name),
      h.model.find?_property hp]
    exact setProperty_of_accepted htaken haccepted
  have hw : p.Writes s.registry.classes ref.cls name := hwrites
  have hin : ref.index < s.heap.objects.size := Nat.zero_lt_one
  have hmade := hw.slot_made hlive hin rfl v
  have hkept : (after (m.set (.object ref) p.name v) s).heap.slot? ref name = none := by
    refine hstays blank [(.object ref, p.name, v)] (fun w hw id' hclass => ?_) ref
    obtain rfl := List.mem_singleton.1 hw
    cases hclass
    exact hid
  unfold after at hkept hmade
  rw [hset] at hkept
  rw [hkept] at hmade
  cases hmade

end AccessorModel

/-- A field of the superclass chain that is final, and is no holder. -/
structure FinalField (t : ClassTable) (c : Class) (m : Model) (chain : List Class) (f : Field) : Prop where
  found : t.superclassChain c = .ok chain
  field : f ∈ chainFields chain
  final : f.isFinal = true
  plain : ∀ ty, ClassTable.resolve f.type m.type t = .ok ty t → t.isAssignable .holder ty.rawClass = false

/-- No property writes the slot of a final field that has no generated setter and no namesake. -/
theorem FinalField.not_writes {config : Config} {ops : List Operation} {c : Class} {m : Model} {k : Contents}
    {receivers : ClassId → Prop} {chain : List Class} {f : Field} {p : Property} {id : ClassId}
    (hf : FinalField (reached config ops).registry.classes c m chain f)
    (h : AccessorModel (reached config ops).registry c m k receivers)
    (hunset : ∀ id, receivers id → ∀ types, (reached config ops).registry.classes.supertypes id = .ok types →
      ¬ SetsSlot types f.name)
    (halone : ∀ g ∈ chainFields chain, g.name = f.name → g = f) (hid : receivers id)
    (hp : p ∈ k.properties) : ¬ p.Writes (reached config ops).registry.classes id f.name := by
  intro hwrites
  unfold Property.Writes at hwrites
  rcases h.model.origin hp with ⟨getter, setter, haccess⟩ | ⟨chain', hchain', g, hg, ty, stage, hmade⟩
  · simp only [haccess] at hwrites
    obtain ⟨types, htypes, hbody⟩ := hwrites
    obtain ⟨types', htypes', hgenerated⟩ := h.accessors id hid
    cases htypes.symm.trans htypes'
    obtain ⟨slot, hslot, hsets⟩ :=
      h.model.setter_writes (h.accessors _ h.own) hp haccess hgenerated hbody
    obtain rfl := writeSlot_injective hslot
    rcases hsets with hsets | ⟨own, hown, hsets⟩
    · exact hunset id hid types htypes hsets
    · exact hunset c.id h.own own hown hsets
  · cases hf.found.symm.trans hchain'
    by_cases hheld : stage.classes.isAssignable .holder ty.rawClass = true
    · simp only [hmade.held hheld] at hwrites
      obtain rfl := halone g hg hwrites
      have hlater := hmade.earlier.classes.isAssignable hheld
      rw [hf.plain ty hmade.type] at hlater
      cases hlater
    · have hrecord : c.isRecord = false := decide_eq_false h.mutable
      have haccess : p.access = if g.isFinal then .finalSlot g.name else .slot g.name := by
        rw [(hmade.slotted hheld).1]
        simp [Scan.slotAccess, hrecord]
      cases hfinal : g.isFinal with
      | true => simp only [haccess, hfinal, if_true] at hwrites
      | false =>
        simp only [haccess, hfinal, Bool.false_eq_true, if_false] at hwrites
        obtain rfl := halone g hg hwrites
        rw [hf.final] at hfinal
        cases hfinal

/-- Generated accessors of a field make a property that writes its slot, final or not. -/
theorem AccessorsOf.writes {config : Config} {ops : List Operation} {c : Class} {m : Model} {k : Contents}
    {fs : List Field} {f : Field} (hc : AccessorsOf c fs) (h : ModelOf (reached config ops).registry c m k)
    (hown : AccessorsOnly (reached config ops).registry.classes c.id)
    (hkind : m.kind = .object ∨ m.kind = .generic) (hf : f ∈ fs) (hn : NamedAfter fs f) :
    ∃ p ∈ k.properties, p.Writes (reached config ops).registry.classes c.id f.name := by
  obtain ⟨p, hfind, -, ⟨getter, setter, haccess, -, hsetter⟩, -⟩ := h.property_found hkind hc hf hn
  refine ⟨p, List.mem_of_find?_eq_some hfind, ?_⟩
  obtain ⟨types, htypes, -⟩ := hown
  obtain ⟨rest, rfl⟩ := supertypes_eq_cons h.declared htypes
  have hmethod : c.method? setter.method 1 = some (Declaration.setterOf f) :=
    hsetter ▸ hc.method?_eq hf hn .setter
  unfold Property.Writes
  simp only [haccess]
  exact ⟨_, htypes, Dispatch.bodyAmong_own hmethod rfl⟩

/-- A final field that is no holder, in a class that is no record and has generated accessors only. All writes
through a model of the class keep what is in the slot of its name just when no property of the model writes that
slot. So it is where no setter is generated for a field of the name and no other field of the superclass chain
has it. A field with generated accessors that are named after it is overwritten: nothing asks whether it is
final. -/
theorem final_field_stays (config : Config) (ops : List Operation) {c : Class} {m : Model} {k : Contents}
    {receivers : ClassId → Prop} {chain : List Class} {f : Field}
    (h : AccessorModel (reached config ops).registry c m k receivers)
    (hf : FinalField (reached config ops).registry.classes c m chain f) :
    let r := (reached config ops).registry
    let t := r.classes
    ((∀ id, receivers id → ∀ p ∈ k.properties, ¬ p.Writes t id f.name) → m.SlotStays receivers r f.name) ∧
      (r.live = true → m.SlotStays receivers r f.name →
        ∀ id, receivers id → ∀ p ∈ k.properties, ¬ p.Writes t id f.name) ∧
      ((∀ id, receivers id → ∀ types, t.supertypes id = .ok types → ¬ SetsSlot types f.name) →
        (∀ g ∈ chainFields chain, g.name = f.name → g = f) → m.SlotStays receivers r f.name) ∧
      (r.live = true → m.kind = .object ∨ m.kind = .generic → ∀ fs, AccessorsOf c fs → f ∈ fs →
        NamedAfter fs f → ¬ m.SlotStays receivers r f.name) := by
  intro r t
  refine ⟨h.slotStays, fun hlive hstays id hid p hp => h.not_writes hlive hstays hid hp,
    fun hunset halone => ?_, fun hlive hkind fs hc hmem hn hstays => ?_⟩
  · exact h.slotStays fun id hid p hp => hf.not_writes h hunset halone hid hp
  · obtain ⟨p, hp, hwrites⟩ := hc.writes h.model (h.accessors _ h.own) hkind hmem hn
    exact h.not_writes hlive hstays h.own hp hwrites

/-- A final field of a class that is declared. -/
theorem FinalField.of_checks {t : ClassTable} {c : Class} {m : Model} {f : Field}
    (hchain : (t.superclassChain c).toOption.any fun chain => f ∈ chainFields chain)
    (hfinal : f.isFinal = true)
    (hplain : (outcome (ClassTable.resolve f.type m.type) t).toOption.all fun ty =>
      !t.isAssignable .holder ty.rawClass) :
    FinalField t c m ((t.superclassChain c).toOption.getD []) f := by
  cases hfound : t.superclassChain c with
  | error e => rw [hfound] at hchain; cases hchain
  | ok chain =>
    rw [hfound] at hchain
    refine ⟨hfound, of_decide_eq_true hchain, hfinal, fun ty hty => ?_⟩
    rw [outcome_of_ok hty] at hplain
    have hno : (!t.isAssignable .holder ty.rawClass) = true := hplain
    simpa using hno

/-- Settings: a final number, final tags, and a title with accessors. -/
def settings : Declaration :=
  Declaration.accessor
    (Declaration.finalField
      (Declaration.finalField (.plain ⟨"Settings"⟩) "id" (.named PrimitiveKind.int32.primitiveId))
      "tags" (.listOf (.named .string)))
    "title" (.named .string)

def settingsRun : List Operation := [.define settings.draft, .of settings.id]

def settingsModel : Model := (reached {} settingsRun).registry.models[0]?.getD default

def settingsContents : Contents :=
  ((reached {} settingsRun).registry.contents? settingsModel).getD default

theorem settings_model :
    AccessorModel (reached {} settingsRun).registry settings.draft.normalize settingsModel settingsContents
      (· = settings.id) where
  model := ModelOf.of_place (reached_declared {} [] _ (by decide +kernel)) (by decide +kernel)
    (by decide +kernel) (by decide +kernel)
  mutable := by decide
  own := rfl
  accessors := by
    rintro id rfl
    refine AccessorsOnly.of_supertypes (c := settings.draft.normalize)
      (reached_declared {} [] _ (by decide +kernel)) ?_ (by decide +kernel)
    refine Class.MethodsGenerated.normalize (Declaration.accessorField_methodsGenerated ?_ _)
    exact Class.methodsGenerated_of_isEmpty rfl

/-- An item that has accessors for its only field, which is read-only. -/
def lockItem : Item :=
  ⟨"Lock", [.flag "accessors"], [], .fields [⟨"id", false, [.flag "readonly"], .path ["i32"] []⟩]⟩

def lockField : Field :=
  ⟨"id", .named PrimitiveKind.int32.primitiveId, { isPrivate := true, isFinal := true }, false⟩

def lock : Declaration := Declaration.accessorField (.plain ⟨"Lock"⟩) lockField

theorem lockItem_declare : lockItem.declare = .ok lock := rfl

def lockRun : List Operation :=
  [.define lock.draft, .of lock.id, .onHeap fun t => discard (t.instantiate lock.id)]

def lockModel : Model := (reached {} lockRun).registry.models[0]?.getD default

def lockContents : Contents := ((reached {} lockRun).registry.contents? lockModel).getD default

theorem lock_model :
    AccessorModel (reached {} lockRun).registry lock.draft.normalize lockModel lockContents
      (· = lock.id) where
  model := ModelOf.of_place (reached_declared {} [] _ (by decide +kernel)) (by decide +kernel)
    (by decide +kernel) (by decide +kernel)
  mutable := by decide
  own := rfl
  accessors := by
    rintro id rfl
    exact AccessorsOnly.of_supertypes (c := lock.draft.normalize)
      (reached_declared {} [] _ (by decide +kernel))
      (Item.declare_methodsGenerated lockItem_declare).normalize (by decide +kernel)

theorem lock_final :
    let t := (reached {} lockRun).registry.classes
    FinalField t lock.draft.normalize lockModel
      ((t.superclassChain lock.draft.normalize).toOption.getD []) lockField :=
  FinalField.of_checks (by decide +kernel) rfl (by decide +kernel)

/-- The tags of the settings stay, and so does their number; the number of a lock does not. -/
theorem final_field_stays_settings :
    let r := (reached {} settingsRun).registry
    settingsContents.properties.map (·.name) = ["tags", "title"] ∧
      settingsModel.SlotStays (· = settings.id) r "tags" ∧
      settingsModel.SlotStays (· = settings.id) r "id" ∧
      ¬ lockModel.SlotStays (· = lock.id) (reached {} lockRun).registry "id" := by
  intro r
  have hstays (f : Field)
      (hf : FinalField r.classes settings.draft.normalize settingsModel
        ((r.classes.superclassChain settings.draft.normalize).toOption.getD []) f)
      (hunset : (r.classes.supertypes settings.id).toOption.all fun types =>
        types.all fun d => d.methods.all (·.name ≠ "set" ++ Text.capitalize f.name))
      (halone : (chainFields ((r.classes.superclassChain settings.draft.normalize).toOption.getD [])).all
        fun g => g.name ≠ f.name || g = f) :
      settingsModel.SlotStays (· = settings.id) r f.name := by
    refine (final_field_stays {} settingsRun settings_model hf).2.2.1 ?_ fun g hg hname => ?_
    · rintro id rfl types htypes
      have hall := hunset
      rw [htypes] at hall
      exact not_setsSlot hall
    · simpa [hname] using List.all_eq_true.1 halone g hg
  refine ⟨by decide +kernel, ?_, ?_, ?_⟩
  · exact hstays ⟨"tags", .listOf (.named .string), { isPublic := true, isFinal := true }, false⟩
      (FinalField.of_checks (by decide +kernel) rfl (by decide +kernel)) (by decide +kernel)
      (by decide +kernel)
  · exact hstays
      ⟨"id", .named PrimitiveKind.int32.primitiveId, { isPublic := true, isFinal := true }, false⟩
      (FinalField.of_checks (by decide +kernel) rfl (by decide +kernel)) (by decide +kernel)
      (by decide +kernel)
  · have hc : AccessorsOf lock.draft.normalize [lockField] :=
      ⟨rfl, fun _ hf => hf, by decide, rfl, rfl⟩
    have hname : accessorProperty? lockField.name = some lockField.name :=
      accessorProperty?_of_letter (c := 'i') rfl (by decide) (by decide)
    have hn : NamedAfter [lockField] lockField :=
      hc.namedAfter (fun g hg => List.mem_singleton.1 hg ▸ hname) List.mem_cons_self
    exact (final_field_stays {} lockRun lock_model lock_final).2.2.2 (by decide +kernel)
      (by decide +kernel) [lockField] hc List.mem_cons_self hn

/-- The declared item has a final field, is no record and has generated accessors only. A write through its model
puts another number in the slot. -/
theorem readonly_field_overwritten :
    let s := reached {} lockRun
    let t := s.registry.classes
    let ref : Ref := ⟨lock.id, 0⟩
    lockItem.declare = .ok lock ∧
      AccessorModel s.registry lock.draft.normalize lockModel lockContents (· = lock.id) ∧
      FinalField t lock.draft.normalize lockModel
        ((t.superclassChain lock.draft.normalize).toOption.getD []) lockField ∧
      s.heap.slot? ref lockField.name = some (.int32 0) ∧
      (∃ s', lockModel.set (.object ref) lockField.name (.int32 5) s = .ok (.object ref) s' ∧
        s'.heap.slot? ref lockField.name = some (.int32 5)) ∧
      ¬ lockModel.SlotStays (· = lock.id) s.registry lockField.name := by
  intro s t ref
  have hset : lockModel.set (.object ref) lockField.name (.int32 5) s =
      .ok (.object ref) (after (lockModel.set (.object ref) lockField.name (.int32 5)) s) :=
    eq_ok_of_outcome (by decide +kernel)
  have hbefore : s.heap.slot? ref lockField.name = some (.int32 0) := by decide +kernel
  have hafter : (after (lockModel.set (.object ref) lockField.name (.int32 5)) s).heap.slot? ref
      lockField.name = some (.int32 5) := by decide +kernel
  refine ⟨lockItem_declare, lock_model, lock_final, hbefore, ⟨_, hset, hafter⟩, fun hstays => ?_⟩
  have hsame : (after (lockModel.set (.object ref) lockField.name (.int32 5)) s).heap.slot? ref
      lockField.name = s.heap.slot? ref lockField.name :=
    hstays s.heap [(.object ref, lockField.name, .int32 5)] (by simp [Value.runtimeClass?, ref]) ref
  rw [hafter, hbefore] at hsame
  cases hsame

end Introspect
