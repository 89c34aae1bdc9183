import Introspect.Classes.Declaration
import Introspect.Proofs.Models.Declarations
import Introspect.Proofs.Models.FieldOrigins
import Introspect.Proofs.Values.Delivery
import Introspect.Proofs.Values.Instances

/-!
Writes to fields of objects that are no records.

The slot of a field holds its value or a holder of it, and may be final. A write to it answers the same
object. Objects and holders are shared, so all that it changes is told of the whole heap.

* `Heap.SlotWritten`, `Heap.HeldWritten`: one slot, or one holder with its channels, and nothing else.
* `writeHolder_eq_ok_iff`: a write through a holder.
* `FieldWrite.slot`, `FieldWrite.final`, `FieldWrite.holder`: one lemma for each way a field is kept.
* `FieldWrite.written_held`, `FieldWrite.written_plain`: fields with a holder, and others.
* `field_write_exact`: what a write to a field makes of the heap.
-/

namespace Introspect

open Registry ClassTable

/-! ## Changes of a heap -/

namespace Heap

/-- The slot of the object holds the value; nothing else differs between the heaps. -/
structure SlotWritten (h h' : Heap) (ref : Ref) (name : String) (v : Value) : Prop where
  written : h'.slot? ref name = some v
  slots : ∀ other, other ≠ name → h'.slot? ref other = h.slot? ref other
  objects : ∀ i, i ≠ ref.index → h'.objects[i]? = h.objects[i]?
  size : h'.objects.size = h.objects.size
  sequences : h'.sequences = h.sequences
  maps : h'.maps = h.maps
  holders : h'.holders = h.holders
  channels : h'.channels = h.channels

/-- The holder holds the value, which waits in the channels of its live subscribers; it has no others any
more. Nothing else differs between the heaps. -/
structure HeldWritten (h h' : Heap) (i : Nat) (v : Value) : Prop where
  holder : h'.holderAt i = ⟨v, h.liveSubscribers i⟩
  holders : ∀ j, j ≠ i → h'.holders[j]? = h.holders[j]?
  published : ∀ c ∈ h.liveSubscribers i, h'.channelAt c =
    { h.channelAt c with pending := (h.channelAt c).pending ++ [v] }
  channels : ∀ c, c ∉ h.liveSubscribers i → h'.channelAt c = h.channelAt c
  sizes : h'.holders.size = h.holders.size ∧ h'.channels.size = h.channels.size
  objects : h'.objects = h.objects
  sequences : h'.sequences = h.sequences
  maps : h'.maps = h.maps

variable {h : Heap} {ref : Ref}

theorem slotWritten_setSlot (hr : ref.index < h.objects.size) (name : String) (v : Value) :
    h.SlotWritten (h.setSlot ref name v) ref name v where
  written := by rw [slot?_setSlot hr, if_pos rfl]
  slots other ho := by rw [slot?_setSlot hr, if_neg ho]
  objects i hi := by
    show (h.objects.setIfInBounds ref.index _)[i]? = h.objects[i]?
    rw [Array.getElem?_setIfInBounds_ne (Ne.symm hi)]
  size := objects_size_setSlot name v
  sequences := rfl
  maps := rfl
  holders := rfl
  channels := rfl

theorem SlotWritten.slotOrNull {h' : Heap} {name : String} {v : Value}
    (hw : h.SlotWritten h' ref name v) : h'.slotOrNull ref name = v := by
  unfold Heap.slotOrNull
  rw [hw.written, Option.getD_some]

/-- Values are published to channels only. -/
theorem foldl_publish_eq (v : Value) (live : List Nat) (h : Heap) :
    ∃ channels, live.foldl (fun h c => h.publish v c) h = { h with channels } := by
  induction live generalizing h with
  | nil => exact ⟨h.channels, rfl⟩
  | cons c live ih =>
    obtain ⟨channels, hrest⟩ := ih (h.publish v c)
    exact ⟨channels, hrest⟩

theorem heldWritten_setHeld {i : Nat} (hs : h.Subscribed i) (v : Value) :
    h.HeldWritten (h.setHeld i v) i v := by
  obtain ⟨hholders, hsize, hchannels⟩ := hs.setHeld_spec v
  obtain ⟨channels, hrest⟩ := foldl_publish_eq v (h.liveSubscribers i)
    { h with holders := h.holders.setIfInBounds i ⟨v, h.liveSubscribers i⟩ }
  have hheap : h.setHeld i v =
      { h with holders := h.holders.setIfInBounds i ⟨v, h.liveSubscribers i⟩, channels } := hrest
  exact
    { holder := by rw [hs.setHeld_holderAt v, if_pos rfl]
      holders := fun j hj => by rw [hholders, Array.getElem?_setIfInBounds_ne (Ne.symm hj)]
      published := fun c hc => by rw [hchannels, if_pos hc]
      channels := fun c hc => by rw [hchannels, if_neg hc]
      sizes := ⟨by rw [hholders, Array.size_setIfInBounds], hsize⟩
      objects := by rw [hheap]
      sequences := by rw [hheap]
      maps := by rw [hheap] }

end Heap

/-! ## Holders in slots -/

section Holders

variable {h h' : Heap} {ref : Ref} {name : String}

theorem holderIn_of_null (hslot : h.slotOrNull ref name = .null) :
    holderIn name (.object ref) h = .ok none h := by
  have hobject : (ofExcept (Value.object ref).asObject : HeapM Ref) h = .ok ref h := rfl
  unfold holderIn
  rw [bind_of_ok hobject, bind_of_ok (get_apply h)]
  simp only [hslot]
  rfl

theorem holderIn_of_holder {i : Nat} (hslot : h.slotOrNull ref name = .holder i) :
    holderIn name (.object ref) h = .ok (some i) h := by
  have hobject : (ofExcept (Value.object ref).asObject : HeapM Ref) h = .ok ref h := rfl
  unfold holderIn
  rw [bind_of_ok hobject, bind_of_ok (get_apply h)]
  simp only [hslot]
  rfl

/-- A slot that is found to have a holder or to be free is so. -/
theorem holderIn_eq_ok {i? : Option Nat} (hrun : holderIn name (.object ref) h = .ok i? h') :
    h' = h ∧ (i? = none ∧ h.slotOrNull ref name = .null ∨
      ∃ i, i? = some i ∧ h.slotOrNull ref name = .holder i) := by
  have hobject : (ofExcept (Value.object ref).asObject : HeapM Ref) h = .ok ref h := rfl
  unfold holderIn at hrun
  rw [bind_of_ok hobject, bind_of_ok (get_apply h)] at hrun
  cases hslot : h.slotOrNull ref name with
  | null =>
    simp only [hslot] at hrun
    cases hrun
    exact ⟨rfl, .inl ⟨rfl, rfl⟩⟩
  | holder i =>
    simp only [hslot] at hrun
    cases hrun
    exact ⟨rfl, .inr ⟨i, rfl, rfl⟩⟩
  | bool | int8 | int16 | int32 | int64 | float32 | float64 | char | text | enumConstant | object | list
  | array | map =>
    simp only [hslot] at hrun
    cases hrun

/-- A write goes through the holder in the slot, and a free slot gets a new holder. -/
theorem writeHolder_eq_ok_iff {a v : Value} :
    writeHolder name (.object ref) v h = .ok a h' ↔ a = .object ref ∧
      ((∃ i, h.slotOrNull ref name = .holder i ∧ h' = h.setHeld i v) ∨
        (h.slotOrNull ref name = .null ∧
          h' = (h.allocHolder v).2.setSlot ref name (h.allocHolder v).1)) := by
  unfold writeHolder
  constructor
  · intro hrun
    obtain ⟨i?, h₁, hin, hrun⟩ := bind_eq_ok_iff.1 hrun
    obtain ⟨rfl, ⟨rfl, hnull⟩ | ⟨i, rfl, hslot⟩⟩ := holderIn_eq_ok hin
    · cases hrun
      exact ⟨rfl, .inr ⟨hnull, rfl⟩⟩
    · cases hrun
      exact ⟨rfl, .inl ⟨i, hslot, rfl⟩⟩
  · rintro ⟨rfl, ⟨i, hslot, rfl⟩ | ⟨hnull, rfl⟩⟩
    · rw [bind_of_ok (holderIn_of_holder hslot)]
      rfl
    · rw [bind_of_ok (holderIn_of_null hnull)]
      rfl

theorem readHolder_of_holder {i : Nat} (hslot : h.slotOrNull ref name = .holder i) :
    readHolder name (.object ref) h = .ok (h.held i) h := by
  unfold readHolder
  rw [bind_of_ok (holderIn_of_holder hslot)]
  rfl

end Holders

/-! ## Writes -/

/-- A write that is taken: a model of a class that is no record, an object, a field property of the model,
and a value that it accepts. A holder in the slot is on the heap, with its subscribers. -/
structure FieldWrite (s : Store) (c : Class) (m : Model) (k : Contents) (ref : Ref) (p : Property)
    (v : Value) : Prop where
  model : ModelOf s.registry c m k
  mutable : c.kind ≠ .record
  property : p ∈ k.properties
  field : p.isOfField = true
  allocated : ref.index < s.heap.objects.size
  subscribed : ∀ i, s.heap.slotOrNull ref p.name = .holder i → s.heap.Subscribed i
  taken : ignoresWrite p (.object ref) v = false
  accepted : s.registry.accepts p.model v = true

/-- What is left by a write to the field, which holds a holder or not. A final field keeps its value, and
nothing else changes. Another field has the written value, and nothing changes but its slot. A field with a
holder has the written value as well: either nothing changes but the holder in its slot, with what waits for
its subscribers, or the slot, which was null or missing, has a new holder. -/
structure FieldWritten (s s' : Store) (held : Bool) (f : Field) (ref : Ref) (p : Property) (v : Value) :
    Prop where
  registry : s'.registry = s.registry
  final : held = false → f.isFinal = true → s' = s
  slot : held = false → f.isFinal = false →
    getProperty (.object ref) (some p) s' = .ok v s' ∧ s.heap.SlotWritten s'.heap ref f.name v
  holder : held = true →
    getProperty (.object ref) (some p) s' = .ok v s' ∧
      ((∃ i, s.heap.slotOrNull ref f.name = .holder i ∧ s.heap.HeldWritten s'.heap i v) ∨
        (s.heap.slotOrNull ref f.name = .null ∧
          (s.heap.allocHolder v).2.SlotWritten s'.heap ref f.name (s.heap.allocHolder v).1))

namespace FieldWrite

variable {s s' : Store} {c : Class} {m : Model} {k : Contents} {ref : Ref} {p : Property} {a v : Value}

/-- The one slot is written. -/
theorem slot (h : FieldWrite s c m k ref p v) (hp : p.access = .slot p.name) :
    ∃ s', setProperty (.object ref) (some p) v s = .ok (.object ref) s' ∧ s'.registry = s.registry ∧
      getProperty (.object ref) (some p) s' = .ok v s' ∧
      s.heap.SlotWritten s'.heap ref p.name v := by
  have hwritten := Heap.slotWritten_setSlot h.allocated p.name v
  refine ⟨{ s with heap := s.heap.setSlot ref p.name v }, ?_, rfl, ?_, hwritten⟩
  · rw [setProperty_of_accepted h.taken h.accepted, Property.write, hp]
    rfl
  · rw [getProperty_plain (.inl hp), hwritten.slotOrNull]

/-- A write to a final slot is lost. -/
theorem final (h : FieldWrite s c m k ref p v) (hp : p.access = .finalSlot p.name) :
    setProperty (.object ref) (some p) v s = .ok (.object ref) s := by
  rw [setProperty_of_accepted h.taken h.accepted, Property.write, hp]
  rfl

/-- A write to a holder is refused just when there is something else in the slot. -/
theorem holder_iff (h : FieldWrite s c m k ref p v) (hp : p.access = .holder p.name) :
    setProperty (.object ref) (some p) v s = .ok a s' ↔ a = .object ref ∧
      ((∃ i, s.heap.slotOrNull ref p.name = .holder i ∧ s' = { s with heap := s.heap.setHeld i v }) ∨
        (s.heap.slotOrNull ref p.name = .null ∧
          s' = { s with heap := (s.heap.allocHolder v).2.setSlot ref p.name (s.heap.allocHolder v).1 })) := by
  rw [setProperty_of_accepted h.taken h.accepted, Property.write, hp, Store.onHeap_eq_ok_iff]
  constructor
  · rintro ⟨h', hrun, rfl⟩
    obtain ⟨rfl, ⟨i, hslot, rfl⟩ | ⟨hnull, rfl⟩⟩ := writeHolder_eq_ok_iff.1 hrun
    · exact ⟨rfl, .inl ⟨i, hslot, rfl⟩⟩
    · exact ⟨rfl, .inr ⟨hnull, rfl⟩⟩
  · rintro ⟨rfl, ⟨i, hslot, rfl⟩ | ⟨hnull, rfl⟩⟩
    · exact ⟨_, writeHolder_eq_ok_iff.2 ⟨rfl, .inl ⟨i, hslot, rfl⟩⟩, rfl⟩
    · exact ⟨_, writeHolder_eq_ok_iff.2 ⟨rfl, .inr ⟨hnull, rfl⟩⟩, rfl⟩

/-- A slot with a holder, read through the property. -/
theorem getProperty_holder (hp : p.access = .holder p.name) {i : Nat}
    (hslot : s.heap.slotOrNull ref p.name = .holder i) :
    getProperty (.object ref) (some p) s = .ok (s.heap.held i) s := by
  rw [getProperty_object, Property.read, hp]
  exact Store.onHeap_eq_ok_iff.2 ⟨_, readHolder_of_holder hslot, rfl⟩

/-- The one holder is written, or a new one is put in the slot. -/
theorem holder (h : FieldWrite s c m k ref p v) (hp : p.access = .holder p.name)
    (hset : setProperty (.object ref) (some p) v s = .ok a s') :
    a = .object ref ∧ s'.registry = s.registry ∧ getProperty (.object ref) (some p) s' = .ok v s' ∧
      ((∃ i, s.heap.slotOrNull ref p.name = .holder i ∧ s.heap.HeldWritten s'.heap i v) ∨
        (s.heap.slotOrNull ref p.name = .null ∧
          (s.heap.allocHolder v).2.SlotWritten s'.heap ref p.name (s.heap.allocHolder v).1)) := by
  obtain ⟨rfl, ⟨i, hslot, rfl⟩ | ⟨hnull, rfl⟩⟩ := (h.holder_iff hp).1 hset
  · have hwritten := Heap.heldWritten_setHeld (h.subscribed i hslot) v
    refine ⟨rfl, rfl, ?_, .inl ⟨i, hslot, hwritten⟩⟩
    have hsame : (s.heap.setHeld i v).slotOrNull ref p.name = .holder i := by
      rw [← hslot]
      unfold Heap.slotOrNull Heap.slot? Heap.slots
      rw [hwritten.objects]
    rw [getProperty_holder (s := { s with heap := s.heap.setHeld i v }) hp hsame]
    show EStateM.Result.ok ((s.heap.setHeld i v).holderAt i).value _ = _
    rw [hwritten.holder]
  · have hin : ref.index < (s.heap.allocHolder v).2.objects.size := h.allocated
    have hwritten := Heap.slotWritten_setSlot hin p.name (s.heap.allocHolder v).1
    refine ⟨rfl, rfl, ?_, .inr ⟨hnull, hwritten⟩⟩
    let u : Store :=
      { s with heap := (s.heap.allocHolder v).2.setSlot ref p.name (s.heap.allocHolder v).1 }
    rw [getProperty_holder (s := u) hp hwritten.slotOrNull]
    show EStateM.Result.ok ((s.heap.allocHolder v).2.holderAt s.heap.holders.size).value u = .ok v u
    rw [Heap.allocHolder_holderAt, if_pos rfl]

variable {f : Field}

/-- Through a holder the write is made just when nothing else is in the slot. -/
theorem written_held (h : FieldWrite s c m k ref p v) (hp : p.access = .holder p.name)
    (hname : p.name = f.name) :
    (∀ a s', setProperty (.object ref) (some p) v s = .ok a s' →
      a = .object ref ∧ FieldWritten s s' true f ref p v) ∧
      ((∃ a s', setProperty (.object ref) (some p) v s = .ok a s') ↔
        s.heap.slotOrNull ref f.name = .null ∨ ∃ i, s.heap.slotOrNull ref f.name = .holder i) := by
  rw [← hname]
  refine ⟨fun a s' hset => ?_, ?_, ?_⟩
  · obtain ⟨ha, hr, hget, hchange⟩ := h.holder hp hset
    exact ⟨ha, hr, nofun, nofun, fun _ => hname ▸ ⟨hget, hchange⟩⟩
  · rintro ⟨a, s', hset⟩
    rcases (h.holder hp hset).2.2.2 with ⟨i, hslot, -⟩ | ⟨hnull, -⟩
    · exact .inr ⟨i, hslot⟩
    · exact .inl hnull
  · rintro (hnull | ⟨i, hslot⟩)
    · exact ⟨_, _, (h.holder_iff hp).2 ⟨rfl, .inr ⟨hnull, rfl⟩⟩⟩
    · exact ⟨_, _, (h.holder_iff hp).2 ⟨rfl, .inl ⟨i, hslot, rfl⟩⟩⟩

/-- Otherwise it is always made, or lost where the field is final. -/
theorem written_plain (h : FieldWrite s c m k ref p v)
    (hp : p.access = if f.isFinal then .finalSlot p.name else .slot p.name) (hname : p.name = f.name) :
    ∃ s', setProperty (.object ref) (some p) v s = .ok (.object ref) s' ∧
      FieldWritten s s' false f ref p v := by
  cases hfinal : f.isFinal with
  | true =>
    rw [hfinal, if_pos rfl] at hp
    exact ⟨s, h.final hp, rfl, fun _ _ => rfl, fun _ hnot => (nomatch hfinal.symm.trans hnot), nofun⟩
  | false =>
    rw [hfinal, if_neg Bool.false_ne_true] at hp
    obtain ⟨s', hset, hr, hget, hwritten⟩ := h.slot hp
    exact ⟨s', hset, hr, fun _ hyes => (nomatch hfinal.symm.trans hyes),
      fun _ _ => ⟨hget, hname ▸ hwritten⟩, nofun⟩

end FieldWrite

/-- A write to a field of an object that is no record. The property was made of a field of the superclass
chain, which the scan saw as one that holds a holder or as one that does not. The write answers the same
object and changes just what it has to; it fails only where something else is in the slot of a holder. -/
theorem field_write_exact (config : Config) (ops : List Operation) {c : Class} {m : Model} {k : Contents}
    {ref : Ref} {p : Property} {v : Value} (h : FieldWrite (reached config ops) c m k ref p v) :
    let s := reached config ops
    let t := s.registry.classes
    ∃ chain, t.superclassChain c = .ok chain ∧ ∃ f ∈ chainFields chain, ∃ ty stage,
      Scan.MadeOf ⟨c, m.type, config⟩ f ty stage p s.registry ∧
      let held := stage.classes.isAssignable .holder ty.rawClass
      p.isObservable = held ∧
      (∀ a s', setProperty (.object ref) (some p) v s = .ok a s' →
        a = .object ref ∧ FieldWritten s s' held f ref p v) ∧
      ((∃ a s', setProperty (.object ref) (some p) v s = .ok a s') ↔
        (held = true → s.heap.slotOrNull ref f.name = .null ∨
          ∃ i, s.heap.slotOrNull ref f.name = .holder i)) := by
  intro s t
  obtain ⟨chain, hchain, f, hf, ty, stage, hmade⟩ := h.model.origin_field h.property h.field
  refine ⟨chain, hchain, f, hf, ty, stage, hmade, ?_⟩
  cases hheld : stage.classes.isAssignable .holder ty.rawClass with
  | true =>
    have hp : p.access = .holder p.name := by rw [hmade.held hheld, hmade.name]
    obtain ⟨heffect, hanswers⟩ := h.written_held hp hmade.name
    exact ⟨by rw [Property.isObservable, hp], heffect, fun hset _ => hanswers.1 hset,
      fun hfree => hanswers.2 (hfree rfl)⟩
  | false =>
    have hrecord : c.isRecord = false := decide_eq_false h.mutable
    have hp : p.access = if f.isFinal then .finalSlot p.name else .slot p.name := by
      rw [(hmade.slotted (by simp [hheld])).1, hmade.name]
      simp [Scan.slotAccess, hrecord]
    obtain ⟨u, hset, hwritten⟩ := h.written_plain hp hmade.name
    refine ⟨?_, fun a s' hset' => ?_, fun _ => nofun, fun _ => ⟨_, _, hset⟩⟩
    · rw [Property.isObservable, hp]
      cases f.isFinal <;> rfl
    · rw [hset] at hset'
      cases hset'
      exact ⟨rfl, hwritten⟩

/-- A class with a level that can be observed, a label and final tags. -/
def gauge : Declaration :=
  Declaration.finalField
    (Declaration.publicField
      (Declaration.publicField (.plain ⟨"Gauge"⟩) "level"
        (.holderOf (.named PrimitiveKind.int32.wrapperId)))
      "label" (.named .string))
    "tags" (.listOf (.named .string))

/-- The gauge is declared and one is made. -/
def gaugeRun : List Operation :=
  [.define gauge.draft, .of gauge.id, .onHeap fun t => discard (t.instantiate gauge.id)]

def gaugeModel : Model := (reached {} gaugeRun).registry.models[0]?.getD default

def gaugeContents : Contents := ((reached {} gaugeRun).registry.contents? gaugeModel).getD default

/-- Any accepted value may be written to a field of the gauge. -/
theorem gauge_write {p : Property} {v : Value} (hp : p ∈ gaugeContents.properties)
    (hfield : p.isOfField = true)
    (hslot : (reached {} gaugeRun).heap.slotOrNull ⟨gauge.id, 0⟩ p.name ∈ [.null, .holder 0])
    (hi : ignoresWrite p (.object ⟨gauge.id, 0⟩) v = false)
    (ha : (reached {} gaugeRun).registry.accepts p.model v = true) :
    FieldWrite (reached {} gaugeRun) gauge.draft.normalize gaugeModel gaugeContents ⟨gauge.id, 0⟩ p v where
  model := ModelOf.of_place (reached_declared {} [] _ (by decide +kernel)) (by decide +kernel)
    (by decide +kernel) (by decide +kernel)
  mutable := by decide
  property := hp
  field := hfield
  allocated := by decide +kernel
  subscribed i hi := by
    obtain rfl : i = 0 := by simpa [hi] using hslot
    exact ⟨by decide +kernel, by decide +kernel, by decide +kernel⟩
  taken := hi
  accepted := ha

/-- Of the fields of the gauge the tags are final. -/
theorem gauge_final {chain : List Class} {f : Field}
    (hchain : (reached {} gaugeRun).registry.classes.superclassChain gauge.draft.normalize = .ok chain)
    (hf : f ∈ chainFields chain) : f.isFinal = decide (f.name = "tags") := by
  have hall : ((reached {} gaugeRun).registry.classes.superclassChain gauge.draft.normalize).toOption.all
      fun chain => (chainFields chain).all fun f => f.isFinal = decide (f.name = "tags") := by
    decide +kernel
  rw [hchain] at hall
  exact of_decide_eq_true (List.all_eq_true.1 hall f hf)

/-- The label goes to its slot, the level to the holder in its slot, and the tags stay. -/
theorem field_write_exact_gauge :
    let s := reached {} gaugeRun
    let p (place : Nat) : Property := gaugeContents.properties[place]?.getD default
    let ref : Ref := ⟨gauge.id, 0⟩
    let tags : Value := .list ⟨.arrayList, 0⟩
    gaugeContents.properties.map (·.name) = ["label", "level", "tags"] ∧
      (∃ s', setProperty (.object ref) (some (p 0)) (.text "a") s = .ok (.object ref) s' ∧
        s.heap.SlotWritten s'.heap ref "label" (.text "a")) ∧
      (∃ s', setProperty (.object ref) (some (p 1)) (.int32 5) s = .ok (.object ref) s' ∧
        s.heap.HeldWritten s'.heap 0 (.int32 5)) ∧
      setProperty (.object ref) (some (p 2)) tags s = .ok (.object ref) s := by
  intro s p ref tags
  have hlabel : FieldWrite s gauge.draft.normalize gaugeModel gaugeContents ref (p 0) (.text "a") :=
    gauge_write (getD_mem (by decide +kernel)) (by decide +kernel) (by decide +kernel) (by decide +kernel)
      (by decide +kernel)
  have hslot : s.heap.slotOrNull ref (p 1).name = .holder 0 := by decide +kernel
  have hlevel : FieldWrite s gauge.draft.normalize gaugeModel gaugeContents ref (p 1) (.int32 5) :=
    gauge_write (getD_mem (by decide +kernel)) (by decide +kernel) (by decide +kernel) (by decide +kernel)
      (by decide +kernel)
  have htags : FieldWrite s gauge.draft.normalize gaugeModel gaugeContents ref (p 2) tags :=
    gauge_write (getD_mem (by decide +kernel)) (by decide +kernel) (by decide +kernel) (by decide +kernel)
      (by decide +kernel)
  refine ⟨by decide +kernel, ?_, ?_, ?_⟩
  · obtain ⟨chain, hchain, f, hf, ty, stage, hmade, hheld, heffect, hanswers⟩ :=
      field_write_exact {} gaugeRun hlabel
    have hname : f.name = "label" := hmade.name.symm.trans (by decide +kernel)
    have hplain := hheld.symm.trans (by decide +kernel : (p 0).isObservable = false)
    obtain ⟨a, s', hset⟩ := hanswers.2 (by rw [hplain]; exact nofun)
    obtain ⟨rfl, hwritten⟩ := heffect a s' hset
    have hfinal : f.isFinal = false := by rw [gauge_final hchain hf, hname]; decide
    exact ⟨s', hset, hname ▸ (hwritten.slot hplain hfinal).2⟩
  · obtain ⟨chain, hchain, f, hf, ty, stage, hmade, hheld, heffect, hanswers⟩ :=
      field_write_exact {} gaugeRun hlevel
    have hholder := hheld.symm.trans (by decide +kernel : (p 1).isObservable = true)
    rw [hmade.name] at hslot
    obtain ⟨a, s', hset⟩ := hanswers.2 fun _ => .inr ⟨0, hslot⟩
    obtain ⟨rfl, hwritten⟩ := heffect a s' hset
    rcases (hwritten.holder hholder).2 with ⟨i, hi, hchange⟩ | ⟨hnull, -⟩
    · obtain rfl : 0 = i := Value.holder.inj (hslot.symm.trans hi)
      exact ⟨s', hset, hchange⟩
    · rw [hslot] at hnull
      cases hnull
  · obtain ⟨chain, hchain, f, hf, ty, stage, hmade, hheld, heffect, hanswers⟩ :=
      field_write_exact {} gaugeRun htags
    have hname : f.name = "tags" := hmade.name.symm.trans (by decide +kernel)
    have hplain := hheld.symm.trans (by decide +kernel : (p 2).isObservable = false)
    obtain ⟨a, s', hset⟩ := hanswers.2 (by rw [hplain]; exact nofun)
    have hfinal : f.isFinal = true := by rw [gauge_final hchain hf, hname]; decide
    obtain ⟨rfl, hwritten⟩ := heffect a s' hset
    cases hwritten.final hplain hfinal
    exact hset

end Introspect
