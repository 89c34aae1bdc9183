import Introspect.Classes.Instance
import Introspect.Proofs.Computation

/-!
What is on the heap and stays as it is.

* `Heap.Intact`: every instance, holder and channel of the one heap is the same in the other.
* `items_setItems`, `entries_setEntries`: what is read after a write.
* `allocObject_intact` and the like: an allocation takes a place that nothing has.
* `instantiate_intact`: so does instantiation, whether or not it comes to an end.
-/

namespace Introspect

namespace Heap

/-- Whatever the one array has at an index, the other has there as well. -/
def Stays {α : Type} (a b : Array α) : Prop := ∀ (i : Nat) (x : α), a[i]? = some x → b[i]? = some x

theorem Stays.refl {α : Type} (a : Array α) : Stays a a := fun _ _ h => h

theorem Stays.trans {α : Type} {a b c : Array α} (h : Stays a b) (h' : Stays b c) : Stays a c :=
  fun i x hx => h' i x (h i x hx)

theorem Stays.push {α : Type} (a : Array α) (y : α) : Stays a (a.push y) := by
  intro i x hx
  have hlt : i < a.size := (Array.getElem?_eq_some_iff.1 hx).1
  rw [Array.getElem?_push, if_neg (by omega)]
  exact hx

/-- The slots of every object, the items of every sequence, the entries of every map, every held value
with its subscribers and every pending value are the same in both heaps; the second may have more. -/
structure Intact (h h' : Heap) : Prop where
  objects : Stays h.objects h'.objects
  sequences : Stays h.sequences h'.sequences
  maps : Stays h.maps h'.maps
  holders : Stays h.holders h'.holders
  channels : Stays h.channels h'.channels

theorem Intact.refl (h : Heap) : h.Intact h :=
  ⟨Stays.refl _, Stays.refl _, Stays.refl _, Stays.refl _, Stays.refl _⟩

theorem Intact.trans (h i j : Heap) (hi : h.Intact i) (hj : i.Intact j) : h.Intact j :=
  ⟨hi.objects.trans hj.objects, hi.sequences.trans hj.sequences, hi.maps.trans hj.maps,
    hi.holders.trans hj.holders, hi.channels.trans hj.channels⟩

/-! ## Allocation -/

theorem allocObject_intact (h : Heap) (cls : ClassId) (slots : Dict String Value) :
    h.Intact (h.allocObject cls slots).2 :=
  { Intact.refl h with objects := Stays.push _ _ }

theorem allocSequence_intact (h : Heap) (cls : ClassId) (items : List Value) :
    h.Intact (h.allocSequence cls items).2 :=
  { Intact.refl h with sequences := Stays.push _ _ }

theorem allocMap_intact (h : Heap) (cls : ClassId) (entries : Dict Value Value) :
    h.Intact (h.allocMap cls entries).2 :=
  { Intact.refl h with maps := Stays.push _ _ }

theorem allocHolder_intact (h : Heap) (v : Value) : h.Intact (h.allocHolder v).2 :=
  { Intact.refl h with holders := Stays.push _ _ }

end Heap

/-! ## Sequences and maps -/

namespace Heap

theorem setIfInBounds_getD {α : Type} (a : Array α) (i : Nat) (d : α) :
    a.setIfInBounds i (a[i]?.getD d) = a := by
  apply Array.ext_getElem?
  intro j
  rw [Array.getElem?_setIfInBounds]
  split
  · next hj =>
    subst hj
    by_cases hi : i < a.size
    · simp [hi]
    · simp [hi]
  · rfl

variable (h : Heap)

theorem items_setItems {ref : Ref} (hr : ref.index < h.sequences.size) (items : List Value) :
    (h.setItems ref items).items ref = items := by
  simp [Heap.items, setItems, hr]

theorem items_setItems_of_ne {ref other : Ref} (hne : ref.index ≠ other.index)
    (items : List Value) : (h.setItems ref items).items other = h.items other := by
  simp [Heap.items, setItems, hne]

theorem setItems_setItems (ref : Ref) (items more : List Value) :
    (h.setItems ref items).setItems ref more = h.setItems ref more := by
  simp [setItems]

theorem setItems_items (ref : Ref) : h.setItems ref (h.items ref) = h := by
  simp only [setItems, Heap.items, setIfInBounds_getD]

theorem entries_setEntries {ref : Ref} (hr : ref.index < h.maps.size) (d : Dict Value Value) :
    (h.setEntries ref d).entries ref = d := by
  simp [Heap.entries, setEntries, hr]

theorem setEntries_setEntries (ref : Ref) (d d' : Dict Value Value) :
    (h.setEntries ref d).setEntries ref d' = h.setEntries ref d' := by
  simp [setEntries]

theorem setEntries_entries (ref : Ref) : h.setEntries ref (h.entries ref) = h := by
  simp only [setEntries, Heap.entries, setIfInBounds_getD]

end Heap

/-! ## Instantiation -/

namespace ClassTable

open Heap

variable (t : ClassTable)

theorem newHolder_intact (v : Value) : Moves Intact (allocHolder v) :=
  Moves.modifyGet fun h => h.allocHolder_intact v

/-- A default is a new holder, or a value that is no holder and needs no place on the heap. -/
theorem defaultValue_cases (ty : TypeExpr) :
    t.defaultValue ty = allocHolder .null ∨
      ∃ v, (∀ i, v ≠ .holder i) ∧ t.defaultValue ty = pure v := by
  unfold defaultValue
  split
  · exact .inr ⟨.null, nofun, rfl⟩
  · split
    · next kind _ => exact .inr ⟨.zero kind, by cases kind <;> exact nofun, rfl⟩
    · split
      · exact .inr ⟨.enumConstant _ _, nofun, rfl⟩
      · exact .inr ⟨.null, nofun, rfl⟩
    · split
      · exact .inl rfl
      · exact .inr ⟨.null, nofun, rfl⟩

theorem defaultValue_intact (ty : TypeExpr) : Moves Intact (t.defaultValue ty) := by
  rcases t.defaultValue_cases ty with hmade | ⟨v, -, hplain⟩
  · rw [hmade]
    exact newHolder_intact _
  · rw [hplain]
    exact Moves.pure Intact.refl _

theorem addDefaults_intact (slots : Dict String Value) (fields : List Field) :
    Moves Intact (t.addDefaults slots fields) := by
  induction fields generalizing slots with
  | nil => exact Moves.pure Intact.refl _
  | cons f fs ih =>
    unfold addDefaults
    split
    · exact ih slots
    · exact Moves.bind Intact.trans (t.defaultValue_intact f.type) fun v => ih (slots.insert f.name v)

theorem instantiatePlain_intact (c : Class) : Moves Intact (t.instantiatePlain c) := by
  unfold instantiatePlain
  split
  · exact Moves.pure Intact.refl _
  split
  · exact newHolder_intact _
  split
  · exact Moves.modifyGet fun h => h.allocSequence_intact c.id []
  split
  · exact Moves.modifyGet fun h => h.allocMap_intact c.id .empty
  refine Moves.bind Intact.trans (Moves.ofExcept Intact.refl _) fun chain => ?_
  refine Moves.bind Intact.trans (t.addDefaults_intact _ _) fun slots => ?_
  exact Moves.modifyGet fun h => h.allocObject_intact c.id slots

/-- New instances are made beside the old ones. -/
theorem instantiate_intact (id : ClassId) : Moves Intact (t.instantiate id) := by
  unfold instantiate
  refine Moves.bind Intact.trans (Moves.ofExcept Intact.refl _) fun c => ?_
  split
  · exact Moves.pure Intact.refl _
  · exact t.defaultValue_intact _
  · exact Moves.modifyGet fun h => h.allocSequence_intact id []
  · exact Moves.throw Intact.refl _
  · split
    · exact Moves.throw Intact.refl _
    · exact t.instantiatePlain_intact c
  · split
    · exact Moves.throw Intact.refl _
    · exact t.instantiatePlain_intact c

/-- A constructor without a body instantiates first and writes to the new instance only after that. -/
theorem runConstructor_atomic {k : Constructor} (hk : k.body = none) (c : Class) (args : List Value)
    (h : Heap) : Atomic Intact (t.runConstructor c k args) h := by
  unfold runConstructor
  simp only [hk]
  refine Atomic.bind Intact.trans (t.instantiate_intact c.id) fun v h₁ _ => ?_
  refine Atomic.bind Intact.trans (Moves.ofExcept Intact.refl _) fun ref h₂ _ => ?_
  exact Atomic.of_ok rfl

end ClassTable
end Introspect
