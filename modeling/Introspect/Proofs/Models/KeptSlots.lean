import Introspect.Proofs.Models.FailedWrite
import Introspect.Proofs.Models.FieldWrites
import Introspect.Proofs.Models.Items

/-!
Slots that writes leave alone.

* `Heap.KeepsSlot`: every object has the same in its slot of the name.
* `methodBody_keepsSlot`, `writeSlot_keepsSlot`, `writeHolder_keepsSlot`: writes to another slot.
* `Model.set_unscanned`: writes through models of sequences and maps.
* `Model.setAll_induct`: any number of writes.
-/

namespace Introspect

open Registry ClassTable Heap

/-! ## Slots that are kept -/

namespace Heap

/-- Every object has the same in its slot of the name. -/
def KeepsSlot (name : String) (h h' : Heap) : Prop := ∀ ref, h'.slot? ref name = h.slot? ref name

variable {name other : String}

theorem KeepsSlot.refl (h : Heap) : h.KeepsSlot name h := fun _ => rfl

theorem KeepsSlot.trans (h h' h'' : Heap) (h₁ : h.KeepsSlot name h') (h₂ : h'.KeepsSlot name h'') :
    h.KeepsSlot name h'' :=
  fun ref => (h₂ ref).trans (h₁ ref)

theorem keepsSlot_of_objects {h h' : Heap} (hobjects : h'.objects = h.objects) : h.KeepsSlot name h' := by
  intro ref
  unfold slot? slots
  rw [hobjects]

theorem keepsSlot_setSlot (hne : name ≠ other) (h : Heap) (ref : Ref) (v : Value) :
    h.KeepsSlot name (h.setSlot ref other v) := by
  intro r
  unfold slot? slots setSlot
  rw [Array.getElem?_setIfInBounds]
  split
  · next hindex =>
    split
    · rw [Option.getD_some, Dict.find?_insert_of_ne _ _ hne, Heap.slots, hindex]
    · next hout =>
      rw [Array.getElem?_eq_none (by omega)]
  · rfl

theorem objects_setHeld (h : Heap) (i : Nat) (v : Value) : (h.setHeld i v).objects = h.objects := by
  obtain ⟨channels, hheap⟩ := foldl_publish_eq v ((h.holderAt i).subscribers.filter h.isLive)
    { h with holders := h.holders.setIfInBounds i ⟨v, (h.holderAt i).subscribers.filter h.isLive⟩ }
  unfold setHeld
  rw [hheap]

/-- The body of a setter writes one slot. -/
theorem methodBody_keepsSlot (hne : name ≠ other) (this : Value) (args : List Value) :
    Moves (KeepsSlot name) (MethodBody.writeSlot other this args) := by
  unfold MethodBody.writeSlot
  refine Moves.bind KeepsSlot.trans (Moves.ofExcept KeepsSlot.refl _) fun ref => ?_
  exact Moves.bind KeepsSlot.trans (Moves.modifyGet fun h => keepsSlot_setSlot hne h ref _)
    fun _ => Moves.pure KeepsSlot.refl _

theorem writeSlot_keepsSlot (hne : name ≠ other) (this v : Value) :
    Moves (KeepsSlot name) (writeSlot other this v) := by
  unfold writeSlot
  refine Moves.bind KeepsSlot.trans (Moves.ofExcept KeepsSlot.refl _) fun ref => ?_
  exact Moves.bind KeepsSlot.trans (Moves.modifyGet fun h => keepsSlot_setSlot hne h ref v)
    fun _ => Moves.pure KeepsSlot.refl _

theorem allocHolder_keepsSlot (v : Value) : Moves (KeepsSlot name) (ClassTable.allocHolder v) :=
  Moves.modifyGet fun _ => keepsSlot_of_objects rfl

/-- A new holder goes to the one slot; a holder that is there is no slot. -/
theorem writeHolder_keepsSlot (hne : name ≠ other) (this v : Value) :
    Moves (KeepsSlot name) (writeHolder other this v) := by
  unfold writeHolder
  refine Moves.bind KeepsSlot.trans (holderIn_moves KeepsSlot.refl KeepsSlot.trans other this) fun index? => ?_
  cases index? with
  | some index =>
    exact Moves.bind KeepsSlot.trans
      (Moves.modifyGet fun h => keepsSlot_of_objects (objects_setHeld h index v))
      fun _ => Moves.pure KeepsSlot.refl _
  | none =>
    refine Moves.bind KeepsSlot.trans (Moves.ofExcept KeepsSlot.refl _) fun ref => ?_
    refine Moves.bind KeepsSlot.trans (allocHolder_keepsSlot v) fun holder => ?_
    exact Moves.bind KeepsSlot.trans (Moves.modifyGet fun h => keepsSlot_setSlot hne h ref holder)
      fun _ => Moves.pure KeepsSlot.refl _

end Heap

namespace Store

/-- The registry is the same, and every object has the same in its slot of the name. -/
structure KeepsSlot (name : String) (s s' : Store) : Prop where
  registry : s'.registry = s.registry
  heap : s.heap.KeepsSlot name s'.heap

theorem KeepsSlot.refl (name : String) (s : Store) : s.KeepsSlot name s := ⟨rfl, Heap.KeepsSlot.refl _⟩

theorem onHeap_keepsSlot {α : Type} {name : String} {x : HeapM α} (hx : Moves (Heap.KeepsSlot name) x) :
    Moves (KeepsSlot name) (onHeap x) := by
  intro s
  have hheap := hx s.heap
  unfold after at hheap ⊢
  unfold onHeap
  cases hrun : x s.heap with
  | ok a h => rw [hrun] at hheap; exact ⟨rfl, hheap⟩
  | error e h => rw [hrun] at hheap; exact ⟨rfl, hheap⟩

end Store

theorem writeItem_keepsSlot (index : Nat) (limit : Option Nat) (this v : Value) {name : String} (s : Store) :
    s.heap.KeepsSlot name (after (writeItem index limit this v) s).heap := by
  cases href : this.asSequence with
  | error e =>
    have hrun : writeItem index limit this v s = .error e s := by
      unfold writeItem
      rw [href, bind_of_error (ofExcept_error e s)]
    rw [after_of_error hrun]
    exact KeepsSlot.refl _
  | ok ref =>
    obtain ⟨lines, hrun⟩ := writeItem_apply href index limit v s
    unfold after
    rw [hrun]
    cases itemsAfter limit (s.heap.items ref) index v with
    | ok items => exact keepsSlot_of_objects rfl
    | error e => exact KeepsSlot.refl _

theorem writeEntry_keepsSlot (key this v : Value) {name : String} :
    Moves (KeepsSlot name) (writeEntry key this v) := by
  unfold writeEntry
  refine Moves.bind KeepsSlot.trans (Moves.ofExcept KeepsSlot.refl _) fun ref => ?_
  exact Moves.bind KeepsSlot.trans (Moves.modifyGet fun h => keepsSlot_of_objects rfl)
    fun _ => Moves.pure KeepsSlot.refl _

/-! ## Models without scanned properties -/

namespace Model

variable {m : Model}

/-- The properties of such models are items and entries. -/
theorem property?_unscanned {r r' : Registry} {p : Property} {name : String}
    (hkind : ¬(m.kind = .object ∨ m.kind = .generic)) (h : m.property? name r = .ok (some p) r') :
    (∃ index limit, p.access = .index index limit) ∨ ∃ key, p.access = .entry key := by
  unfold property? at h
  cases hk : m.kind with
  | object => exact absurd (.inl hk) hkind
  | generic => exact absurd (.inr hk) hkind
  | scalar => simp only [hk] at h; cases h
  | list | array =>
    simp only [hk] at h
    unfold itemProperty? at h
    cases hname : indexOfName? name with
    | none => simp only [hname] at h; cases h
    | some index =>
      simp only [hname] at h
      obtain ⟨ps, r₁, -, h⟩ := bind_eq_ok_iff.1 h
      cases hhead : ps.head? with
      | none => simp only [hhead] at h; cases h
      | some item =>
        simp only [hhead] at h
        obtain ⟨_, r₂, -, h⟩ := bind_eq_ok_iff.1 h
        obtain ⟨t, r₃, -, h⟩ := bind_eq_ok_iff.1 h
        cases h
        exact .inl ⟨_, _, rfl⟩
  | map =>
    simp only [hk] at h
    unfold entryProperty? at h
    obtain ⟨ps, r₁, -, h⟩ := bind_eq_ok_iff.1 h
    split at h
    · next key value =>
      cases hcodec : key.codec with
      | none => simp only [hcodec] at h; cases h
      | some codec =>
        cases hdecode : codec.decode name with
        | ok key' =>
          simp only [hcodec, hdecode] at h
          cases h
          exact .inr ⟨_, rfl⟩
        | error e =>
          simp only [hcodec, hdecode] at h
          obtain ⟨_, r₂, -, h⟩ := bind_eq_ok_iff.1 h
          cases h
    · cases h

/-- Items and entries are in no slot. -/
theorem set_unscanned (hkind : ¬(m.kind = .object ∨ m.kind = .generic)) (this : Value) (written : String)
    (v : Value) (name : String) :
    Moves (fun s s' => s.heap.KeepsSlot name s'.heap) (m.set this written v) := by
  have hlookup : Moves (fun s s' => s.heap.KeepsSlot name s'.heap)
      (Store.onRegistry (m.property? written)) := by
    intro s
    rw [Store.heap_after_onRegistry]
    exact KeepsSlot.refl _
  refine Moves.bindOf (fun s t u => KeepsSlot.trans s.heap t.heap u.heap) hlookup fun s p? s' hrun u => ?_
  cases p? with
  | none => exact KeepsSlot.refl _
  | some p =>
    obtain ⟨r, hr, -⟩ := Store.onRegistry_eq_ok hrun
    rcases after_setProperty p this v u with hsame | hwritten
    · rw [hsame]
      exact KeepsSlot.refl _
    · rw [hwritten]
      unfold Property.write
      rcases property?_unscanned hkind hr with ⟨index, limit, haccess⟩ | ⟨key, haccess⟩
      · simp only [haccess]
        exact writeItem_keepsSlot index limit this v u
      · simp only [haccess]
        exact (Store.onHeap_keepsSlot (writeEntry_keepsSlot key this v) u).heap

/-! ## Writes in turn -/

/-- Writes under names, each to an instance of its own; after a refused write the next one is made. -/
def setAll (m : Model) (writes : List (Value × String × Value)) (s : Store) : Store :=
  writes.foldl (fun s w => after (m.set w.1 w.2.1 w.2.2) s) s

/-- What every write hands on holds in the end. -/
theorem setAll_induct {writes : List (Value × String × Value)} {I : Store → Prop}
    (hstep : ∀ w ∈ writes, ∀ s, I s → I (after (m.set w.1 w.2.1 w.2.2) s)) {s : Store} (h : I s) :
    I (m.setAll writes s) := by
  induction writes generalizing s with
  | nil => exact h
  | cons w ws ih =>
    exact ih (fun w' hw' => hstep w' (List.mem_cons_of_mem _ hw')) (hstep w List.mem_cons_self s h)

/-- No writes through the model to instances of the classes change what an object has in its slot of the name,
whatever is on the heap. -/
def SlotStays (m : Model) (receivers : ClassId → Prop) (r : Registry) (name : String) : Prop :=
  ∀ heap writes, (∀ w ∈ writes, ∀ id, w.1.runtimeClass? = some id → receivers id) →
    KeepsSlot name heap (m.setAll writes ⟨heap, r⟩).heap

end Model
end Introspect
