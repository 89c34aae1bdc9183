import Introspect.Proofs.Models.AccessorNames
import Introspect.Proofs.Values.Heap

/-!
Writes that fail.

A write checks everything before it changes anything; only the copy of a record makes something new on the
way, beside what is there. So a failure leaves every instance, holder and channel as it was, unless code
of a declaration is run that is no generated setter.

* `Property.WritesDirectly`: no such code is run.
* `AccessorsOf.writesDirectly`: the class of the receiver has generated accessors of its own.
* `Property.write_atomic`: one case for each way a property is kept.
* `Model.set_atomic`: a write under a name.
* `failed_write_intact`: what a failed write and an ignored write leave.
-/

namespace Introspect

open Heap

/-! ## Stores -/

namespace Store

variable {α : Type}

/-- The heap of the one store is intact in the other. -/
def Intact (s s' : Store) : Prop := s.heap.Intact s'.heap

theorem Intact.refl (s : Store) : s.Intact s := Heap.Intact.refl s.heap

theorem Intact.trans (s t u : Store) (h : s.Intact t) (h' : t.Intact u) : s.Intact u :=
  Heap.Intact.trans _ _ _ h h'

theorem onRegistry_intact (x : RegistryM α) : Moves Intact (onRegistry x) := by
  intro s
  unfold Intact
  rw [heap_after_onRegistry]
  exact Heap.Intact.refl s.heap

theorem onHeap_atomic {x : HeapM α} {s : Store} (hx : Atomic Heap.Intact x s.heap) :
    Atomic Intact (onHeap x) s := by
  intro e s' h
  unfold onHeap at h
  cases hrun : x s.heap with
  | ok a g => rw [hrun] at h; cases h
  | error e' g => rw [hrun] at h; cases h; exact hx _ _ hrun

end Store

/-! ## Slots, holders and entries -/

theorem writeSlot_atomic (name : String) (this v : Value) (h : Heap) :
    Atomic Intact (writeSlot name this v) h := by
  unfold writeSlot
  refine Atomic.bind Intact.trans (Moves.ofExcept Intact.refl _) fun ref h₁ _ => ?_
  exact Atomic.of_ok rfl

theorem writeEntry_atomic (key this v : Value) (h : Heap) :
    Atomic Intact (writeEntry key this v) h := by
  unfold writeEntry
  refine Atomic.bind Intact.trans (Moves.ofExcept Intact.refl _) fun ref h₁ _ => ?_
  exact Atomic.of_ok rfl

/-- Looking for a holder changes nothing. -/
theorem holderIn_moves {R : Heap → Heap → Prop} (hrefl : ∀ h, R h h) (htrans : ∀ g h k, R g h → R h k → R g k)
    (name : String) (this : Value) : Moves R (holderIn name this) := by
  unfold holderIn
  refine Moves.bind htrans (Moves.ofExcept hrefl _) fun ref => ?_
  refine Moves.bind htrans (Moves.get hrefl) fun h => ?_
  split
  · exact Moves.pure hrefl _
  · exact Moves.bind htrans (Moves.ofExcept hrefl _) fun _ => Moves.pure hrefl _

theorem writeHolder_atomic (name : String) (this v : Value) (h : Heap) :
    Atomic Intact (writeHolder name this v) h := by
  unfold writeHolder
  refine Atomic.bind Intact.trans (holderIn_moves Intact.refl Intact.trans name this) fun found h₁ _ => ?_
  cases found with
  | some index => exact Atomic.of_ok rfl
  | none =>
    refine Atomic.bind Intact.trans (Moves.ofExcept Intact.refl _) fun ref h₂ _ => ?_
    exact Atomic.of_ok rfl

/-! ## Items -/

theorem writeItem_atomic (index : Nat) (limit : Option Nat) (this v : Value) (s : Store) :
    Atomic Store.Intact (writeItem index limit this v) s := by
  unfold writeItem
  refine Atomic.bind Store.Intact.trans (Moves.ofExcept Store.Intact.refl _) fun ref s₁ _ => ?_
  refine Atomic.bind Store.Intact.trans (Moves.get Store.Intact.refl) fun t s₂ _ => ?_
  refine Atomic.bind Store.Intact.trans (Store.onRegistry_intact _) fun _ s₃ _ => ?_
  refine Atomic.bind Store.Intact.trans (Moves.get Store.Intact.refl) fun t s₄ _ => ?_
  refine Atomic.bind Store.Intact.trans (Moves.ofExcept Store.Intact.refl _) fun heap s₅ _ => ?_
  exact Atomic.of_ok rfl

/-! ## Components -/

/-- The record of the instance is copied by a constructor without a body. -/
def CopiesBySlots (t : ClassTable) (this : Value) : Prop :=
  ∀ ref c k, this = .object ref → t.find? ref.cls = some c → c.canonicalConstructor? = some k →
    k.body = none

theorem writeComponent_atomic {name : String} {this : Value} {s : Store}
    (hk : CopiesBySlots s.registry.classes this) (v : Value) :
    Atomic Store.Intact (writeComponent name this v) s := by
  unfold writeComponent
  refine Atomic.bind Store.Intact.trans (Store.onRegistry_intact _) fun _ s₁ hlive => ?_
  cases Store.requireLive_eq_ok hlive
  refine Atomic.bind Store.Intact.trans (Moves.ofExcept Store.Intact.refl _) fun ref s₂ href => ?_
  obtain ⟨hobject, rfl⟩ := ofExcept_eq_ok_iff.1 href
  refine Atomic.bind Store.Intact.trans (Moves.get Store.Intact.refl) fun t s₃ ht => ?_
  cases ht
  refine Atomic.bind Store.Intact.trans (Moves.ofExcept Store.Intact.refl _) fun c s₄ hc => ?_
  obtain ⟨hfound, rfl⟩ := ofExcept_eq_ok_iff.1 hc
  have hthis : this = .object ref := by
    cases this <;> cases hobject
    rfl
  cases hcanon : c.canonicalConstructor? with
  | none => exact Atomic.of_moves (Moves.throw Store.Intact.refl _)
  | some k =>
    have hbody : k.body = none := hk ref c k hthis (ClassTable.lookup_eq_ok_iff.1 hfound) hcanon
    refine Atomic.bind Store.Intact.trans (Moves.get Store.Intact.refl) fun t s₅ ht => ?_
    exact Store.onHeap_atomic (ClassTable.runConstructor_atomic _ hbody c _ _)

/-! ## Accessors -/

/-- The body of the method, if it has one, stores its argument in a slot. -/
def Method.WritesSlot (m : Method) : Prop :=
  ∀ body, m.body = some body → ∃ slot, body = MethodBody.writeSlot slot

theorem setterOf_writesSlot (f : Field) : (Declaration.setterOf f).WritesSlot := by
  rintro body ⟨⟩
  exact ⟨f.name, rfl⟩

/-- What a call of the setter on the receiver runs stores the argument in a slot: the body that is found for the
receiver, or the declared one where none is found. -/
structure Dispatch.WritesSlot (d : Dispatch) (t : ClassTable) (this : Value) : Prop where
  found : ∀ body, t.findMethod this d.method 1 = .ok (some body) →
    ∃ slot, body = MethodBody.writeSlot slot
  declared : t.findMethod this d.method 1 = .ok none → ∀ body, d.declared = some body →
    ∃ slot, body = MethodBody.writeSlot slot

theorem firstBody_eq_some {name : String} {arity : Nat} {cs : List Class} {body : MethodBody}
    (h : ClassTable.firstBody name arity cs = some body) :
    ∃ c ∈ cs, ∃ m, c.method? name arity = some m ∧ m.body = some body := by
  obtain ⟨c, hc, hbody⟩ := List.exists_of_findSome?_eq_some h
  obtain ⟨m, hm, hbody⟩ := Option.bind_eq_some_iff.1 hbody
  exact ⟨c, hc, m, hm, hbody⟩

theorem findMethod_eq_some {t : ClassTable} {this : Value} {name : String} {arity : Nat}
    {body : MethodBody} (h : t.findMethod this name arity = .ok (some body)) :
    ∃ id cs, this.runtimeClass? = some id ∧ t.supertypes id = .ok cs ∧
      ClassTable.firstBody name arity cs = some body := by
  unfold ClassTable.findMethod at h
  cases hid : this.runtimeClass? with
  | none => rw [hid] at h; cases h
  | some id =>
    rw [hid] at h
    simp only at h
    split at h
    · cases hcs : t.supertypes id with
      | error e => rw [hcs] at h; cases h
      | ok cs =>
        rw [hcs] at h
        exact ⟨id, cs, rfl, hcs, Except.ok.inj h⟩
    · cases h

/-- A setter of the receiver's own class comes before all others. -/
theorem Dispatch.WritesSlot.of_own {d : Dispatch} {t : ClassTable} {ref : Ref} {c : Class} {m : Method}
    {body : MethodBody} (hc : t.find? ref.cls = some c) (hm : c.method? d.method 1 = some m)
    (hbody : m.body = some body) (hwrites : m.WritesSlot) : d.WritesSlot t (.object ref) := by
  have hfirst : ∀ cs, t.supertypes ref.cls = .ok cs → ClassTable.firstBody d.method 1 cs = some body := by
    intro cs hcs
    obtain ⟨rest, rfl⟩ := ClassTable.supertypes_eq_cons hc hcs
    unfold ClassTable.firstBody
    rw [List.findSome?_cons, hm, Option.bind_some, hbody]
  constructor
  · intro found h
    obtain ⟨id, cs, hid, hcs, hfound⟩ := findMethod_eq_some h
    cases hid
    rw [hfirst cs hcs] at hfound
    cases hfound
    exact hwrites body hbody
  · intro h
    unfold ClassTable.findMethod at h
    simp only [show (Value.object ref).runtimeClass? = some ref.cls from rfl,
      ClassTable.contains_iff.2 ⟨c, hc⟩, if_true] at h
    cases hcs : t.supertypes ref.cls with
    | error e => rw [hcs] at h; cases h
    | ok cs =>
      rw [hcs] at h
      have hnone : ClassTable.firstBody d.method 1 cs = none := Except.ok.inj h
      rw [hfirst cs hcs] at hnone
      cases hnone

/-- So a call runs nothing else. -/
theorem Dispatch.body_writesSlot {d : Dispatch} {this : Value} {s s' : Store} {body : MethodBody}
    (hd : d.WritesSlot s.registry.classes this) (h : d.body this 1 s = .ok body s') :
    ∃ slot, body = MethodBody.writeSlot slot := by
  unfold Dispatch.body at h
  obtain ⟨_, s₁, hlive, h⟩ := bind_eq_ok_iff.1 h
  cases Store.requireLive_eq_ok hlive
  obtain ⟨t, s₂, ht, h⟩ := bind_eq_ok_iff.1 h
  cases ht
  obtain ⟨found, s₃, hfound, h⟩ := bind_eq_ok_iff.1 h
  obtain ⟨hfound, rfl⟩ := ofExcept_eq_ok_iff.1 hfound
  cases found with
  | some b => cases h; exact hd.found body hfound
  | none =>
    cases hdeclared : d.declared with
    | some b => simp only [hdeclared] at h; cases h; exact hd.declared hfound body hdeclared
    | none => simp only [hdeclared] at h; cases h

theorem Dispatch.body_intact (d : Dispatch) (this : Value) (arity : Nat) :
    Moves Store.Intact (d.body this arity) := by
  unfold Dispatch.body
  refine Moves.bind Store.Intact.trans (Store.onRegistry_intact _) fun _ => ?_
  refine Moves.bind Store.Intact.trans (Moves.get Store.Intact.refl) fun t => ?_
  refine Moves.bind Store.Intact.trans (Moves.ofExcept Store.Intact.refl _) fun found => ?_
  split
  · exact Moves.pure Store.Intact.refl _
  · split
    · exact Moves.pure Store.Intact.refl _
    · exact Moves.throw Store.Intact.refl _

theorem MethodBody.writeSlot_atomic (slot : String) (this : Value) (args : List Value) (h : Heap) :
    Atomic Intact (MethodBody.writeSlot slot this args) h := by
  unfold MethodBody.writeSlot
  refine Atomic.bind Intact.trans (Moves.ofExcept Intact.refl _) fun ref h₁ _ => ?_
  exact Atomic.of_ok rfl

theorem Dispatch.call_atomic {d : Dispatch} {this : Value} {s : Store}
    (hd : d.WritesSlot s.registry.classes this) (v : Value) :
    Atomic Store.Intact (d.call this [v]) s := by
  unfold Dispatch.call
  refine Atomic.bind Store.Intact.trans (d.body_intact this _) fun body s₁ hbody => ?_
  obtain ⟨slot, rfl⟩ := d.body_writesSlot hd hbody
  exact Store.onHeap_atomic (MethodBody.writeSlot_atomic slot this [v] _)

/-! ## Properties -/

/-- A write through the property runs no code of a declaration but that of generated setters. -/
def Property.WritesDirectly (p : Property) (t : ClassTable) (this : Value) : Prop :=
  match p.access with
  | .accessors _ setter => setter.WritesSlot t this
  | .component _ => CopiesBySlots t this
  | .slot _ | .finalSlot _ | .holder _ | .index _ _ | .entry _ => True

/-- A write through the generated accessors of a field runs the setter of the receiver's class, even where a
supertype has a setter of the same name that does something else. -/
theorem AccessorsOf.writesDirectly {c : Class} {fs : List Field} (hc : AccessorsOf c fs) {f : Field}
    (hf : f ∈ fs) (hn : NamedAfter fs f) {p : Property} (hp : p.IsAccessorsOf f) {t : ClassTable} {ref : Ref}
    (hfound : t.find? ref.cls = some c) : p.WritesDirectly t (.object ref) := by
  obtain ⟨getter, setter, haccess, -, hsetter⟩ := hp
  have hm : c.method? setter.method 1 = some (Declaration.setterOf f) := by
    rw [hsetter]
    exact hc.method?_eq hf hn .setter
  unfold Property.WritesDirectly
  rw [haccess]
  exact .of_own hfound hm rfl (setterOf_writesSlot f)

theorem Property.write_atomic {p : Property} {this : Value} {s : Store}
    (hp : p.WritesDirectly s.registry.classes this) (v : Value) :
    Atomic Store.Intact (p.write this v) s := by
  unfold WritesDirectly at hp
  unfold write
  cases hacc : p.access with
  | accessors getter setter =>
    rw [hacc] at hp
    refine Atomic.andThen ?_ fun _ s₁ => ⟨this, s₁, rfl⟩
    exact Atomic.andThen (setter.call_atomic hp v) fun _ s₁ => ⟨(), s₁, rfl⟩
  | slot name => exact Store.onHeap_atomic (writeSlot_atomic name this v _)
  | finalSlot name => exact Atomic.of_ok rfl
  | component name =>
    rw [hacc] at hp
    exact writeComponent_atomic hp v
  | holder name => exact Store.onHeap_atomic (writeHolder_atomic name this v _)
  | index index limit => exact writeItem_atomic index limit this v s
  | entry key => exact Store.onHeap_atomic (writeEntry_atomic key this v _)

theorem setProperty_atomic {p : Property} {this : Value} {s : Store}
    (hp : p.WritesDirectly s.registry.classes this) (v : Value) :
    Atomic Store.Intact (setProperty this (some p) v) s := by
  simp only [setProperty]
  split
  · exact Atomic.of_ok rfl
  · refine Atomic.bind Store.Intact.trans (Moves.get Store.Intact.refl) fun t s₁ ht => ?_
    cases ht
    split
    · exact p.write_atomic hp v
    · exact Atomic.of_moves (Moves.throw Store.Intact.refl _)

theorem Model.set_atomic {m : Model} {this : Value} {name : String} {s : Store}
    (hp : ∀ p r, m.property? name s.registry = .ok (some p) r → p.WritesDirectly r.classes this)
    (v : Value) : Atomic Store.Intact (m.set this name v) s := by
  unfold set
  refine Atomic.bind Store.Intact.trans (Store.onRegistry_intact _) fun p? s₁ hfound => ?_
  cases p? with
  | none => exact Atomic.of_ok rfl
  | some p =>
    obtain ⟨r, hr, rfl⟩ := Store.onRegistry_eq_ok hfound
    exact setProperty_atomic (hp p r hr) v

/-- A write under a name is ignored when there is no property of the name, or the property ignores it. -/
theorem Model.set_ignored {m : Model} {this v : Value} {name : String} {s : Store} {p? : Option Property}
    {r : Registry} (h : m.property? name s.registry = .ok p? r)
    (hignored : ∀ p, p? = some p → ignoresWrite p this v = true) :
    m.set this name v s = .ok this { s with registry := r } := by
  rw [set_of_property h]
  cases p? with
  | none => rfl
  | some p => exact setProperty_ignored (hignored p rfl) _

/-- A write that fails leaves everything on the heap as it was: slots, items, entries, held values and values
that wait for a signal. A write that is ignored changes nothing at all. So do writes under a name, which may
look for the property first. -/
theorem failed_write_intact {p : Property} {this v : Value} {s : Store}
    (hp : p.WritesDirectly s.registry.classes this) :
    (∀ e s', setProperty this (some p) v s = .error e s' → s.heap.Intact s'.heap) ∧
      (this = .null ∨ v = .null ∧ p.model.isNullable = false →
        setProperty this (some p) v s = .ok this s) ∧
      setProperty this none v s = .ok this s ∧
      ∀ (m : Model) (name : String),
        ((∀ q r, m.property? name s.registry = .ok (some q) r → q.WritesDirectly r.classes this) →
          ∀ e s', m.set this name v s = .error e s' → s.heap.Intact s'.heap) ∧
        ∀ q? r, m.property? name s.registry = .ok q? r →
          (∀ q, q? = some q → this = .null ∨ v = .null ∧ q.model.isNullable = false) →
          m.set this name v s = .ok this { s with registry := r } := by
  have hignored : ∀ q : Property, this = .null ∨ v = .null ∧ q.model.isNullable = false →
      ignoresWrite q this v = true := by
    rintro q (rfl | ⟨rfl, hnull⟩)
    · rfl
    · simp [ignoresWrite, hnull, Value.isNull]
  exact ⟨setProperty_atomic hp v, fun hnoop => setProperty_ignored (hignored p hnoop) s, rfl,
    fun m name => ⟨fun hdirect => Model.set_atomic hdirect v,
      fun q? r hfound hnoop => Model.set_ignored hfound fun q hq => hignored q (hnoop q hq)⟩⟩

/-- Two records with one component, the second of which is also a list: the copy of an instance of the second
would be a list, so that a write to it fails after a list was made. And a card with a generated setter above a
setter that always fails: a write under the name of the field fails for want of a registry, before anything is
run. -/
theorem failed_write_intact_samples :
    (let int : TypeExpr := .named PrimitiveKind.int32.primitiveId
      let base : Class :=
        { Class.bare ⟨"Base"⟩ .record with
          fields := [⟨"size", int, .privateOnly, false⟩]
          constructors := [⟨[("size", int)], .publicOnly, none⟩] }
      let rows : Class := { base with id := ⟨"Rows"⟩, interfaces := [.named .list] }
      let made : HeapM Unit := modify fun h => (h.allocObject ⟨"Rows"⟩ ⟨[("size", .int32 1)]⟩).2
      let s := reached {} [.define base, .define rows, .of ⟨"Base"⟩, .onHeap fun _ => made]
      let p : Property := ⟨(s.registry.models[1]?).getD default, "size", false, .component "size"⟩
      ∃ s', setProperty (.object ⟨⟨"Rows"⟩, 0⟩) (some p) (.int32 2) s =
          .error (.typeMismatch "object" "Rows") s' ∧
        s'.heap.sequences.size = s.heap.sequences.size + 1 ∧ s.heap.Intact s'.heap) ∧
    (let bool : TypeExpr := .named PrimitiveKind.bool.primitiveId
      let strict : Class :=
        { Class.bare ⟨"Strict"⟩ .plain with
          methods := [⟨"setDone", [bool], none, .publicOnly, some fun _ _ => throw (.capacity 0)⟩] }
      let d := ((Declaration.plain ⟨"Card"⟩).withSuperclass (.named strict.id)).accessor "done" bool
      let c := d.draft.normalize
      let s := reached {} [.define strict, .define d.draft, .of c.id,
        .onHeap (fun t => discard (t.instantiate c.id)), .drop]
      let m := s.registry.models[0]?.getD default
      ∃ s', m.set (.object ⟨c.id, 0⟩) "done" (.bool true) s = .error .registryDropped s' ∧
        s.heap.Intact s'.heap) := by
  constructor
  · intro int base rows made s p
    have hset : setProperty (.object ⟨⟨"Rows"⟩, 0⟩) (some p) (.int32 2) s =
        .error (.typeMismatch "object" "Rows") _ := eq_error_of_outcome (by decide +kernel)
    have hbodies : (s.registry.classes.find? ⟨"Rows"⟩).all fun c =>
        c.canonicalConstructor?.all fun k => k.body.isNone := by decide +kernel
    have hdirect : p.WritesDirectly s.registry.classes (.object ⟨⟨"Rows"⟩, 0⟩) := by
      rintro ref c k ⟨⟩ hc hk
      rw [hc, Option.all_some, hk] at hbodies
      exact Option.isNone_iff_eq_none.1 hbodies
    exact ⟨_, hset, by decide +kernel, (failed_write_intact hdirect).1 _ _ hset⟩
  · intro bool strict d c s m
    let f : Field := ⟨"done", bool, .privateOnly, false⟩
    let k := (s.registry.contents? m).getD default
    have hc : AccessorsOf c c.fields := ⟨rfl, fun _ hf => hf, by decide, rfl, rfl⟩
    have hfound : s.registry.classes.find? c.id = some c :=
      reached_declared {} [.define strict] _ (by decide +kernel)
    have hm : ModelOf s.registry c m k :=
      ModelOf.of_place hfound (by decide +kernel) (by decide +kernel) (by decide +kernel)
    have hkind : m.kind = .object ∨ m.kind = .generic := by decide +kernel
    have hf : f ∈ c.fields := List.mem_singleton_self f
    have hname : accessorProperty? "done" = some "done" :=
      accessorProperty?_of_letter (c := 'd') rfl (by decide) (by decide)
    have hn : NamedAfter c.fields f := hc.namedAfter (fun g hg => List.mem_singleton.1 hg ▸ hname) hf
    obtain ⟨p, hfind, -, haccessors, -⟩ := hm.property_found hkind hc hf hn
    have hdirect : ∀ q r, m.property? "done" s.registry = .ok (some q) r →
        q.WritesDirectly r.classes (.object ⟨c.id, 0⟩) := by
      intro q r hq
      rw [hm.property?_eq hkind, hfind] at hq
      cases hq
      exact hc.writesDirectly hf hn haccessors hfound
    have hset : m.set (.object ⟨c.id, 0⟩) "done" (.bool true) s = .error .registryDropped _ :=
      eq_error_of_outcome (by decide +kernel)
    have hwrites : p.WritesDirectly s.registry.classes (.object ⟨c.id, 0⟩) :=
      hc.writesDirectly hf hn haccessors hfound
    exact ⟨_, hset, ((failed_write_intact hwrites).2.2.2 m "done").1 hdirect _ _ hset⟩

end Introspect
