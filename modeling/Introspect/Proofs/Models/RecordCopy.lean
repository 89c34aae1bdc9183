import Introspect.Classes.Declaration
import Introspect.Proofs.Models.Declarations
import Introspect.Proofs.Models.Requests
import Introspect.Proofs.Models.Scan
import Introspect.Proofs.Values.Instances

/-!
Writes to records.

A record declared without a constructor is given one over its components, so a write copies what its own
components hold. Inherited fields are properties as well, and the copy has the defaults in their slots.

* `ImplicitRecord.canonical`: the constructor that a copy is made with.
* `RecordWrite.setProperty_iff`: the copy that a write answers.
* `record_write`: what the copy holds, and when it is what a copy must be.
-/

namespace Introspect

/-! ## Records without a declared constructor -/

/-- A record that is declared without a constructor; no two of its components have the same name. -/
structure ImplicitRecord (d : Declaration) (c : Class) : Prop where
  kind : d.draft.kind = .record
  constructors : d.draft.constructors = []
  build : d.build = .ok c
  names : (c.instanceFields.map (·.name)).Nodup

/-- The declared class with a constructor over its components. -/
def Declaration.completed (d : Declaration) : Class :=
  { d.draft with constructors := [Declaration.componentConstructor d.draft] }

namespace ImplicitRecord

variable {d : Declaration} {c : Class}

theorem eq_completed (h : ImplicitRecord d c) : c = d.completed := by
  have hb := h.build
  have hnone : d.draft.canonicalConstructor? = none := by
    simp only [Class.canonicalConstructor?, h.constructors, List.find?_nil]
  unfold Declaration.build at hb
  simp only [h.kind, hnone, Option.isSome_none, Bool.false_eq_true, if_false] at hb
  split at hb
  · cases hb
  · rw [h.constructors] at hb
    simpa only [Declaration.completed, h.kind, List.nil_append] using (Except.ok.inj hb).symm

theorem record (h : ImplicitRecord d c) : c.normalize.kind = .record := by
  have hk : c.kind = .record := by rw [h.eq_completed]; exact h.kind
  unfold Class.normalize
  split <;> exact hk

theorem instanceFields_normalize (c : Class) : c.normalize.instanceFields = c.instanceFields := by
  unfold Class.normalize
  split <;> rfl

/-- The canonical constructor is the one over the components. -/
theorem canonical (h : ImplicitRecord d c) :
    c.normalize.canonicalConstructor? = some (Declaration.componentConstructor c.normalize) := by
  have hks : c.normalize.constructors = [Declaration.componentConstructor c.normalize] := by
    have hc : c.constructors = [Declaration.componentConstructor c] := by
      rw [h.eq_completed]
      rfl
    unfold Class.normalize
    split <;> exact hc
  unfold Class.canonicalConstructor?
  rw [hks, List.find?_cons_of_pos]
  simp [Declaration.componentConstructor]

end ImplicitRecord

/-! ## Field properties -/

/-- The property of a field that keeps its value itself, not in a holder. -/
def Property.isPlainField (p : Property) : Bool :=
  match p.access with
  | .slot _ | .finalSlot _ | .component _ => true
  | .accessors _ _ | .holder _ | .index _ _ | .entry _ => false

theorem Scan.Source.component {S : Scan} {pairs : List AccessorPair} {fields : List Field}
    {p : Property} (h : S.Source pairs fields p) (hrecord : S.owner.kind = .record)
    (hp : p.isPlainField = true) : p.access = .component p.name := by
  unfold Property.isPlainField at hp
  cases h with
  | accessors pair hpair hname getter setter h => rw [h] at hp; cases hp
  | holder f hf hname h => rw [h] at hp; cases hp
  | field f hf hname h =>
    rw [h, hname]
    simp [slotAccess, Class.isRecord, hrecord]

theorem getProperty_component {p : Property} (hp : p.access = .component p.name) (ref : Ref)
    (s : Store) : getProperty (.object ref) (some p) s = .ok (s.heap.slotOrNull ref p.name) s :=
  getProperty_plain (.inr (.inr hp)) ref s

/-! ## Writes -/

/-- A write that is taken: a live registry, an instance of the record, a property that a model of the
record gives for a field, and a value that it accepts. -/
structure RecordWrite (s : Store) (c : Class) (m : Model) (k : Contents) (ref : Ref) (p : Property)
    (v : Value) : Prop where
  live : s.registry.live = true
  model : ModelOf s.registry c.normalize m k
  property : p ∈ k.properties
  field : p.isPlainField = true
  cls : ref.cls = c.id
  allocated : ref.index < s.heap.objects.size
  taken : ignoresWrite p (.object ref) v = false
  accepted : s.registry.accepts p.model v = true

/-- The write answers another object of the class. The property has the written value there and every
other field property the value it has on the instance, whose slots are as they were. -/
def CopiesOnWrite (s : Store) (ps : List Property) (ref : Ref) (p : Property) (v : Value) : Prop :=
  ∃ fresh s', setProperty (.object ref) (some p) v s = .ok (.object fresh) s' ∧
    fresh ≠ ref ∧ fresh.cls = ref.cls ∧
    getProperty (.object fresh) (some p) s' = .ok v s' ∧
    (∀ q ∈ ps, q.isPlainField = true → q.name ≠ p.name →
      ∃ w, getProperty (.object ref) (some q) s = .ok w s ∧
        getProperty (.object fresh) (some q) s' = .ok w s') ∧
    ∀ name, s'.heap.slot? ref name = s.heap.slot? ref name

/-- What a slot has to hold in the copy. -/
def copiedValue (h : Heap) (ref : Ref) (written : String) (v : Value) (name : String) : Value :=
  if name = written then v else h.slotOrNull ref name

/-- The components with what they hold in the copy. -/
def copiedSlots (c : Class) (h : Heap) (ref : Ref) (written : String) (v : Value) :
    List (String × Value) :=
  c.instanceFields.map fun f => (f.name, copiedValue h ref written v f.name)

theorem copiedSlots_names (c : Class) (h : Heap) (ref : Ref) (name : String) (v : Value) :
    (copiedSlots c h ref name v).map (·.1) = c.instanceFields.map (·.name) := by
  simp [copiedSlots]

theorem zip_copyArguments (c : Class) (h : Heap) (ref : Ref) (name : String) (v : Value) :
    ((Declaration.componentConstructor c).params.map (·.1)).zip
        (copyArguments (Declaration.componentConstructor c) h ref name v) =
      copiedSlots c h ref name v := by
  simp only [Declaration.componentConstructor, copyArguments, List.map_map, copiedSlots,
    List.zip_map']
  rfl

/-- A write to a component runs the constructor over the components. -/
theorem writeComponent_apply {s : Store} {c : Class} {ref : Ref}
    (hc : s.registry.classes.find? ref.cls = some c) (hlive : s.registry.live = true)
    (hk : c.canonicalConstructor? = some (Declaration.componentConstructor c)) (name : String)
    (v : Value) :
    writeComponent name (.object ref) v s =
      Store.onHeap (s.registry.classes.runConstructor c (Declaration.componentConstructor c)
        (copyArguments (Declaration.componentConstructor c) s.heap ref name v)) s := by
  have hobject : (ofExcept (Value.object ref).asObject : StoreM Ref) s = .ok ref s := rfl
  unfold writeComponent
  rw [bind_of_ok (Store.requireLive_of_live hlive), bind_of_ok hobject, bind_of_ok (get_apply s),
    bind_of_ok (ofExcept_eq_ok_iff.2 ⟨ClassTable.lookup_eq_ok_iff.2 hc, rfl⟩)]
  simp only [hk]
  rw [bind_of_ok (get_apply s)]

namespace RecordWrite

variable {config : Config} {ops : List Operation} {d : Declaration} {c : Class} {m : Model}
  {k : Contents} {ref : Ref} {p : Property} {v : Value}

theorem declared {s : Store} (h : RecordWrite s c m k ref p v) :
    s.registry.classes.find? c.id = some c.normalize := by
  rw [← ClassTable.normalize_id]
  exact h.model.declared

/-- All field properties of a model of a record are components. -/
theorem component (h : RecordWrite (reached config ops) c m k ref p v)
    (hrecord : c.normalize.kind = .record) {q : Property} (hq : q ∈ k.properties)
    (hfield : q.isPlainField = true) : q.access = .component q.name := by
  obtain ⟨config', types, chain, -, -, hsource⟩ := h.model.sourced hq
  exact hsource.component hrecord hfield

variable {s : Store}

/-- A write answers just what instantiation gives, with the components in its slots. -/
theorem setProperty_iff (h : RecordWrite s c m k ref p v) (hd : ImplicitRecord d c)
    (hp : p.access = .component p.name) {a : Value} {s' : Store} :
    setProperty (.object ref) (some p) v s = .ok a s' ↔
      ∃ fresh blank, s.registry.classes.instantiate c.id s.heap = .ok (.object fresh) blank ∧
        a = .object fresh ∧
        s' = { s with
          heap := ClassTable.writeSlots fresh (copiedSlots c s.heap ref p.name v) blank } := by
  have hbody : (Declaration.componentConstructor c.normalize).body = none := rfl
  have hslots : copiedSlots c.normalize s.heap ref p.name v = copiedSlots c s.heap ref p.name v := by
    unfold copiedSlots
    rw [ImplicitRecord.instanceFields_normalize]
  have hwrite : p.write (.object ref) v s = writeComponent p.name (.object ref) v s := by
    unfold Property.write
    rw [hp]
  rw [setProperty_of_accepted h.taken h.accepted, hwrite,
    writeComponent_apply (h.cls ▸ h.declared) h.live hd.canonical, Store.onHeap_eq_ok_iff]
  constructor
  · rintro ⟨h', hrun, rfl⟩
    obtain ⟨fresh, blank, hnew, rfl, rfl⟩ := (ClassTable.runConstructor_eq_ok_iff hbody).1 hrun
    rw [ClassTable.normalize_id] at hnew
    rw [zip_copyArguments, hslots]
    exact ⟨fresh, blank, hnew, rfl, rfl⟩
  · rintro ⟨fresh, blank, hnew, rfl, rfl⟩
    refine ⟨_, (ClassTable.runConstructor_eq_ok_iff hbody).2 ⟨fresh, blank, ?_, rfl, rfl⟩, ?_⟩
    · rw [ClassTable.normalize_id]
      exact hnew
    · rw [zip_copyArguments, hslots]

/-- The copy is a new object. Its components hold what they have to; its other slots are as instantiation
left them. -/
structure CopyOf (s : Store) (c : Class) (ref : Ref) (written : String) (v : Value) (blank : Heap)
    (fresh : Ref) (s' : Store) : Prop where
  registry : s'.registry = s.registry
  new : fresh = ⟨c.id, s.heap.objects.size⟩
  intact : s.heap.Intact s'.heap
  component : ∀ name ∈ c.instanceFields.map (·.name),
    s'.heap.slotOrNull fresh name = copiedValue s.heap ref written v name
  other : ∀ name, name ∉ c.instanceFields.map (·.name) →
    s'.heap.slotOrNull fresh name = blank.slotOrNull fresh name

theorem copyOf (hc : s.registry.classes.find? c.id = some c.normalize) (hd : ImplicitRecord d c)
    (written : String) (v : Value) {fresh : Ref} {blank : Heap}
    (hnew : s.registry.classes.instantiate c.id s.heap = .ok (.object fresh) blank) :
    CopyOf s c ref written v blank fresh
      { s with heap := ClassTable.writeSlots fresh (copiedSlots c s.heap ref written v) blank } := by
  have hc' : s.registry.classes.find? c.normalize.id = some c.normalize := by
    rw [ClassTable.normalize_id]
    exact hc
  obtain ⟨hfresh, hsize⟩ := ClassTable.instantiate_record_fresh hc' hd.record
    (by rw [ClassTable.normalize_id]; exact hnew)
  rw [ClassTable.normalize_id] at hfresh
  have hindex : fresh.index = s.heap.objects.size := by rw [hfresh]
  have hin : fresh.index < blank.objects.size := by omega
  have hblank : s.heap.Intact blank := (s.registry.classes.instantiate_intact c.id).ok hnew
  have hnames : ((copiedSlots c s.heap ref written v).map (·.1)).Nodup := by
    rw [copiedSlots_names]
    exact hd.names
  refine ⟨rfl, hfresh, ClassTable.writeSlots_intact hblank (by omega), fun name hname => ?_,
    fun name hname => ?_⟩
  · obtain ⟨f, hf, rfl⟩ := List.mem_map.1 hname
    have hmem : (f.name, copiedValue s.heap ref written v f.name) ∈
        copiedSlots c s.heap ref written v :=
      List.mem_map_of_mem (f := fun f => (f.name, copiedValue s.heap ref written v f.name)) hf
    unfold Heap.slotOrNull
    rw [ClassTable.slot?_writeSlots_of_mem hin hnames hmem]
    rfl
  · unfold Heap.slotOrNull
    rw [ClassTable.slot?_writeSlots_of_not_mem hin (by rwa [copiedSlots_names])]

/-- Where instantiation answers, the write answers a copy. -/
theorem copies (h : RecordWrite s c m k ref p v) (hd : ImplicitRecord d c)
    (hp : p.access = .component p.name) {fresh : Ref} {blank : Heap}
    (hnew : s.registry.classes.instantiate c.id s.heap = .ok (.object fresh) blank) :
    ∃ s', setProperty (.object ref) (some p) v s = .ok (.object fresh) s' ∧
      CopyOf s c ref p.name v blank fresh s' :=
  ⟨_, (h.setProperty_iff hd hp).2 ⟨fresh, blank, hnew, rfl, rfl⟩, copyOf h.declared hd p.name v hnew⟩

/-- Nothing but such a copy is answered. -/
theorem copied (h : RecordWrite s c m k ref p v) (hd : ImplicitRecord d c)
    (hp : p.access = .component p.name) {a : Value} {s' : Store}
    (hok : setProperty (.object ref) (some p) v s = .ok a s') :
    ∃ fresh blank, s.registry.classes.instantiate c.id s.heap = .ok (.object fresh) blank ∧
      a = .object fresh ∧ CopyOf s c ref p.name v blank fresh s' := by
  obtain ⟨fresh, blank, hnew, rfl, rfl⟩ := (h.setProperty_iff hd hp).1 hok
  exact ⟨fresh, blank, hnew, rfl, copyOf h.declared hd p.name v hnew⟩

/-- The record is none of the built-in classes that are instantiated in another way. -/
theorem instantiate_iff (h : RecordWrite (reached config ops) c m k ref p v)
    (hrecord : c.normalize.kind = .record) (heap : Heap) :
    (∃ fresh blank,
      (reached config ops).registry.classes.instantiate c.id heap = .ok (.object fresh) blank) ↔
      (reached config ops).registry.classes.MakesObjects c.normalize := by
  have hwithin := (run_later (s := Store.new config) (Registry.new_valid config) ops).2.classes
  have other_kind : ∀ id b, ClassTable.builtin.find? id = some b → b.kind = .plain → c.id ≠ id := by
    rintro id b hb hplain rfl
    have hsame := Option.some.inj ((hwithin _ _ hb).symm.trans h.declared)
    rw [hsame, hrecord] at hplain
    cases hplain
  have hid := ClassTable.normalize_id c
  have hc : (reached config ops).registry.classes.find? c.normalize.id = some c.normalize := by
    rw [hid]
    exact h.declared
  have hiff := ClassTable.instantiate_record_iff (h := heap) hc hrecord
    (by rw [hid]; exact other_kind .string _ rfl rfl) (by rw [hid]; exact other_kind .holder _ rfl rfl)
  rwa [hid] at hiff

/-- A copy of the components is the copy that is to be made if every inherited field is in the new object
what it has to be. -/
theorem CopyOf.copiesOnWrite_iff {ps : List Property} {blank : Heap} {fresh : Ref} {s' : Store}
    (hcopy : CopyOf s c ref p.name v blank fresh s')
    (hset : setProperty (.object ref) (some p) v s = .ok (.object fresh) s')
    (hcls : ref.cls = c.id) (hin : ref.index < s.heap.objects.size) (hp : p ∈ ps)
    (hfield : p.isPlainField = true)
    (hps : ∀ q ∈ ps, q.isPlainField = true → q.access = .component q.name) :
    CopiesOnWrite s ps ref p v ↔
      ∀ q ∈ ps, q.isPlainField = true → q.name ∉ c.instanceFields.map (·.name) →
        blank.slotOrNull fresh q.name = copiedValue s.heap ref p.name v q.name := by
  have hread : ∀ q ∈ ps, q.isPlainField = true → ∀ ref' u,
      getProperty (.object ref') (some q) u = .ok (u.heap.slotOrNull ref' q.name) u :=
    fun q hq hf => getProperty_component (hps q hq hf)
  constructor
  · rintro ⟨fresh', u, hset', -, -, hwritten, hothers, -⟩ q hq hf hout
    rw [hset] at hset'
    cases hset'
    rw [← hcopy.other q.name hout]
    unfold copiedValue
    by_cases hname : q.name = p.name
    · rw [hread p hp hfield] at hwritten
      rw [if_pos hname, hname]
      exact (EStateM.Result.ok.inj hwritten).1
    · obtain ⟨w, hbefore, hafter⟩ := hothers q hq hf hname
      rw [hread q hq hf] at hbefore hafter
      rw [if_neg hname]
      exact (EStateM.Result.ok.inj hafter).1.trans (EStateM.Result.ok.inj hbefore).1.symm
  · intro hinherited
    have hvalue : ∀ q ∈ ps, q.isPlainField = true →
        s'.heap.slotOrNull fresh q.name = copiedValue s.heap ref p.name v q.name := by
      intro q hq hf
      by_cases hown : q.name ∈ c.instanceFields.map (·.name)
      · exact hcopy.component q.name hown
      · rw [hcopy.other q.name hown, hinherited q hq hf hown]
    refine ⟨fresh, s', hset, ?_, ?_, ?_, fun q hq hf hname => ?_, hcopy.intact.slot? hin⟩
    · rintro rfl
      rw [hcopy.new] at hin
      exact Nat.lt_irrefl _ hin
    · rw [hcopy.new, hcls]
    · rw [hread p hp hfield, hvalue p hp hfield, copiedValue, if_pos rfl]
    · refine ⟨_, hread q hq hf ref s, ?_⟩
      rw [hread q hq hf, hvalue q hq hf, copiedValue, if_neg hname]

end RecordWrite

/-- A write to a field of a record that was declared without a constructor: it answers just when objects
of the record can be made, and then a copy of the components. That is the copy which was to be made just
when a new object starts every inherited field with the value that it has to have there. -/
theorem record_write (config : Config) (ops : List Operation) {d : Declaration} {c : Class} {m : Model}
    {k : Contents} {ref : Ref} {p : Property} {v : Value} (hd : ImplicitRecord d c)
    (h : RecordWrite (reached config ops) c m k ref p v) :
    let s := reached config ops
    let t := s.registry.classes
    ((∃ a s', setProperty (.object ref) (some p) v s = .ok a s') ↔ t.MakesObjects c.normalize) ∧
      (∀ a s', setProperty (.object ref) (some p) v s = .ok a s' →
        ∃ fresh blank, t.instantiate c.id s.heap = .ok (.object fresh) blank ∧
          a = .object fresh ∧ RecordWrite.CopyOf s c ref p.name v blank fresh s') ∧
      (CopiesOnWrite s k.properties ref p v ↔ t.MakesObjects c.normalize ∧
        ∀ fresh blank, t.instantiate c.id s.heap = .ok (.object fresh) blank →
          ∀ q ∈ k.properties, q.isPlainField = true → q.name ∉ c.instanceFields.map (·.name) →
            blank.slotOrNull fresh q.name = copiedValue s.heap ref p.name v q.name) := by
  intro s t
  have hp := h.component hd.record h.property h.field
  have hmakes := h.instantiate_iff hd.record s.heap
  have hwhen : ∀ fresh blank, t.instantiate c.id s.heap = .ok (.object fresh) blank →
      (CopiesOnWrite s k.properties ref p v ↔
        ∀ q ∈ k.properties, q.isPlainField = true → q.name ∉ c.instanceFields.map (·.name) →
          blank.slotOrNull fresh q.name = copiedValue s.heap ref p.name v q.name) := by
    intro fresh blank hnew
    obtain ⟨s', hok, hcopy⟩ := h.copies hd hp hnew
    exact hcopy.copiesOnWrite_iff hok h.cls h.allocated h.property h.field
      fun q hq hf => h.component hd.record hq hf
  refine ⟨?_, fun a s' hok => h.copied hd hp hok, ?_, ?_⟩
  · rw [← hmakes]
    constructor
    · rintro ⟨a, s', hok⟩
      obtain ⟨fresh, blank, hnew, -⟩ := h.copied hd hp hok
      exact ⟨fresh, blank, hnew⟩
    · rintro ⟨fresh, blank, hnew⟩
      obtain ⟨s', hok, -⟩ := h.copies hd hp hnew
      exact ⟨_, s', hok⟩
  · intro hcopied
    obtain ⟨fresh, s', hok, -⟩ := id hcopied
    obtain ⟨fresh, blank, hnew, -⟩ := h.copied hd hp hok
    refine ⟨hmakes.1 ⟨fresh, blank, hnew⟩, fun fresh' blank' hnew' => ?_⟩
    exact (hwhen fresh' blank' hnew').1 hcopied
  · rintro ⟨hmake, hinherited⟩
    obtain ⟨fresh, blank, hnew⟩ := hmakes.2 hmake
    exact (hwhen fresh blank hnew).2 (hinherited fresh blank hnew)

/-- A class with a tag. -/
def tagged : Class := (Declaration.publicField (.plain ⟨"Tagged"⟩) "tag" (.named .string)).draft

/-- A record with one component that inherits the tag. -/
def taggedPoint : Declaration :=
  Declaration.component (Declaration.withSuperclass (.record ⟨"Point"⟩) (.named tagged.id)) "x"
    (.named PrimitiveKind.int32.primitiveId)

/-- The point is declared and one is made. -/
def taggedPointRun : List Operation :=
  [.define tagged, .define taggedPoint.completed, .of ⟨"Point"⟩,
    .onHeap fun t => discard (t.construct ⟨"Point"⟩ [.int32 1])]

def taggedPointModel : Model := (reached {} taggedPointRun).registry.models[0]?.getD default

def taggedPointContents : Contents :=
  ((reached {} taggedPointRun).registry.contents? taggedPointModel).getD default

theorem taggedPoint_implicit : ImplicitRecord taggedPoint taggedPoint.completed :=
  ⟨rfl, rfl, rfl, by decide⟩

/-- Any accepted value may be written to a field of the point. -/
theorem taggedPoint_write {p : Property} {v : Value} (hp : p ∈ taggedPointContents.properties)
    (hfield : p.isPlainField = true) (hi : ignoresWrite p (.object ⟨⟨"Point"⟩, 0⟩) v = false)
    (ha : (reached {} taggedPointRun).registry.accepts p.model v = true) :
    RecordWrite (reached {} taggedPointRun) taggedPoint.completed taggedPointModel
      taggedPointContents ⟨⟨"Point"⟩, 0⟩ p v where
  live := by decide +kernel
  model := ModelOf.of_place (reached_declared {} [.define tagged] _ (by decide +kernel))
    (by decide +kernel) (by decide +kernel) (by decide +kernel)
  property := hp
  field := hfield
  cls := rfl
  allocated := by decide +kernel
  taken := hi
  accepted := ha

/-- The point inherits a tag. As that is null, a write to the component makes the copy. -/
theorem record_write_point :
    let c := taggedPoint.completed
    let s := reached {} taggedPointRun
    let k := taggedPointContents
    let p := k.properties[1]?.getD default
    let ref : Ref := ⟨⟨"Point"⟩, 0⟩
    ImplicitRecord taggedPoint c ∧ RecordWrite s c taggedPointModel k ref p (.int32 5) ∧
      k.properties.map (·.name) = ["tag", "x"] ∧ CopiesOnWrite s k.properties ref p (.int32 5) := by
  intro c s k p ref
  have hw : RecordWrite s c taggedPointModel k ref p (.int32 5) :=
    taggedPoint_write (getD_mem (by decide +kernel)) (by decide +kernel) (by decide +kernel)
      (by decide +kernel)
  obtain ⟨hanswers, -, hcopies⟩ := record_write {} taggedPointRun taggedPoint_implicit hw
  have hset : setProperty (.object ref) (some p) (.int32 5) s = .ok (.object ⟨⟨"Point"⟩, 1⟩) _ :=
    eq_ok_of_outcome (by decide +kernel)
  have hnew : s.registry.classes.instantiate c.id s.heap = .ok (.object ⟨⟨"Point"⟩, 1⟩) _ :=
    eq_ok_of_outcome (by decide +kernel)
  refine ⟨taggedPoint_implicit, hw, by decide +kernel,
    hcopies.2 ⟨hanswers.1 ⟨_, _, hset⟩, fun fresh blank hblank => ?_⟩⟩
  rw [hnew] at hblank
  cases hblank
  decide +kernel

/-- A write to the tag is lost. -/
theorem inherited_write_lost :
    let c := taggedPoint.completed
    let s := reached {} taggedPointRun
    let k := taggedPointContents
    let p := k.properties[0]?.getD default
    let ref : Ref := ⟨⟨"Point"⟩, 0⟩
    ImplicitRecord taggedPoint c ∧ RecordWrite s c taggedPointModel k ref p (.text "a") ∧
      p.name = "tag" ∧
      (∃ s', setProperty (.object ref) (some p) (.text "a") s = .ok (.object ⟨⟨"Point"⟩, 1⟩) s' ∧
        getProperty (.object ⟨⟨"Point"⟩, 1⟩) (some p) s' = .ok .null s') ∧
      ¬CopiesOnWrite s k.properties ref p (.text "a") := by
  intro c s k p ref
  have hw : RecordWrite s c taggedPointModel k ref p (.text "a") :=
    taggedPoint_write (getD_mem (by decide +kernel)) (by decide +kernel) (by decide +kernel)
      (by decide +kernel)
  have hset : setProperty (.object ref) (some p) (.text "a") s = .ok (.object ⟨⟨"Point"⟩, 1⟩) _ :=
    eq_ok_of_outcome (by decide +kernel)
  have hcomponent : p.access = .component p.name :=
    hw.component taggedPoint_implicit.record hw.property hw.field
  have hnull : (after (setProperty (.object ref) (some p) (.text "a")) s).heap.slotOrNull
      ⟨⟨"Point"⟩, 1⟩ p.name = .null := by decide +kernel
  have hget := getProperty_component hcomponent ⟨⟨"Point"⟩, 1⟩
    (after (setProperty (.object ref) (some p) (.text "a")) s)
  rw [hnull] at hget
  refine ⟨taggedPoint_implicit, hw, by decide +kernel, ⟨_, hset, hget⟩, ?_⟩
  rintro ⟨fresh, s', hset', -, -, hread, -⟩
  rw [hset] at hset'
  cases hset'
  rw [hget] at hread
  cases hread

end Introspect
