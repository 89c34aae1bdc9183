import Introspect.Proofs.Classes.Growth
import Introspect.Proofs.Values.Heap

/-!
New objects and what is written to their slots.

* `slot?_setSlot`: what is read after a write to an object.
* `slot?_writeSlots_of_mem`, `slot?_writeSlots_of_not_mem`: what is read after all arguments are written.
* `instantiate_record_iff`: when a record gives a new object.
* `instantiate_record_fresh`: the object is one that nothing refers to.
* `runConstructor_eq_ok_iff`: the object that a constructor without a body gives.
-/

namespace Introspect

namespace Heap

variable {h : Heap} {ref : Ref}

/-! ## Slots -/

theorem slots_setSlot (hr : ref.index < h.objects.size) (name : String) (v : Value) :
    (h.setSlot ref name v).slots ref = (h.slots ref).insert name v := by
  simp [slots, setSlot, hr]

theorem slot?_setSlot (hr : ref.index < h.objects.size) (name other : String) (v : Value) :
    (h.setSlot ref name v).slot? ref other =
      if other = name then some v else h.slot? ref other := by
  unfold slot?
  rw [slots_setSlot hr]
  by_cases ho : other = name
  · rw [if_pos ho, ho, Dict.find?_insert_self]
  · rw [if_neg ho, Dict.find?_insert_of_ne _ _ ho]

@[simp] theorem objects_size_setSlot (name : String) (v : Value) :
    (h.setSlot ref name v).objects.size = h.objects.size := by
  simp [setSlot]

/-- What was there before stays when only a later object is written to. -/
theorem Intact.setSlot {h₀ : Heap} (hi : h₀.Intact h) (hr : h₀.objects.size ≤ ref.index)
    (name : String) (v : Value) : h₀.Intact (h.setSlot ref name v) := by
  refine { hi with objects := fun i x hx => ?_ }
  have hlt : i < h₀.objects.size := (Array.getElem?_eq_some_iff.1 hx).1
  show (h.objects.setIfInBounds ref.index _)[i]? = some x
  rw [Array.getElem?_setIfInBounds_ne (by omega)]
  exact hi.objects i x hx

theorem Intact.slot? {h' : Heap} (hi : h.Intact h') (hr : ref.index < h.objects.size)
    (name : String) : h'.slot? ref name = h.slot? ref name := by
  have hx := Array.getElem?_eq_getElem hr
  unfold Heap.slot? slots
  rw [hx, hi.objects _ _ hx]

end Heap

namespace ClassTable

open Heap

/-! ## Arguments -/

section Arguments

variable {ref : Ref} {entries : List (String × Value)} {h : Heap}

theorem slot?_writeSlots_of_not_mem (hr : ref.index < h.objects.size) {name : String}
    (hn : name ∉ entries.map (·.1)) : (writeSlots ref entries h).slot? ref name = h.slot? ref name := by
  induction entries generalizing h with
  | nil => rfl
  | cons e es ih =>
    rw [List.map_cons, List.mem_cons, not_or] at hn
    unfold writeSlots
    rw [ih (by rwa [objects_size_setSlot]) hn.2, slot?_setSlot hr, if_neg hn.1]

/-- No parameter is named twice, so no argument replaces another one. -/
theorem slot?_writeSlots_of_mem (hr : ref.index < h.objects.size)
    (hnames : (entries.map (·.1)).Nodup) {name : String} {v : Value} (hv : (name, v) ∈ entries) :
    (writeSlots ref entries h).slot? ref name = some v := by
  induction entries generalizing h with
  | nil => cases hv
  | cons e es ih =>
    rw [List.map_cons, List.nodup_cons] at hnames
    have hr' : ref.index < (h.setSlot ref e.1 e.2).objects.size := by rwa [objects_size_setSlot]
    unfold writeSlots
    rcases List.mem_cons.1 hv with rfl | hv
    · rw [slot?_writeSlots_of_not_mem hr' hnames.1, slot?_setSlot hr, if_pos rfl]
    · exact ih hr' hnames.2 hv

theorem writeSlots_intact {h₀ : Heap} (hi : h₀.Intact h) (hr : h₀.objects.size ≤ ref.index) :
    h₀.Intact (writeSlots ref entries h) := by
  induction entries generalizing h with
  | nil => exact hi
  | cons e es ih => exact ih (hi.setSlot hr e.1 e.2)

end Arguments

/-! ## New objects -/

section Instantiation

variable {t : ClassTable} {c : Class} {h : Heap}

theorem defaultValue_eq_ok (ty : TypeExpr) (h : Heap) :
    ∃ v h', t.defaultValue ty h = .ok v h' ∧ h'.objects = h.objects := by
  rcases t.defaultValue_cases ty with hmade | ⟨v, -, hplain⟩
  · exact ⟨.holder h.holders.size, (h.allocHolder .null).2, by rw [hmade]; rfl, rfl⟩
  · exact ⟨v, h, by rw [hplain]; rfl, rfl⟩

/-- Defaults can always be made, and they are no objects. -/
theorem addDefaults_eq_ok (slots : Dict String Value) (fields : List Field) (h : Heap) :
    ∃ slots' h', t.addDefaults slots fields h = .ok slots' h' ∧ h'.objects = h.objects := by
  induction fields generalizing slots h with
  | nil => exact ⟨_, _, rfl, rfl⟩
  | cons f fs ih =>
    unfold addDefaults
    split
    · exact ih slots h
    · obtain ⟨v, h₁, hv, hsame⟩ := defaultValue_eq_ok f.type h
      obtain ⟨slots', h₂, hrest, hsame'⟩ := ih (slots.insert f.name v) h₁
      exact ⟨slots', h₂, (bind_of_ok hv).trans hrest, hsame'.trans hsame⟩

/-- Objects of the class can be made: it is not abstract, is no container, and its superclasses are
declared. -/
structure MakesObjects (t : ClassTable) (c : Class) : Prop where
  concrete : c.modifiers.isAbstract = false
  list : t.isAssignable .list c.id = false
  map : t.isAssignable .map c.id = false
  chain : ∃ cs, t.superclassChain c = .ok cs

/-- A plain class and a record give objects with slots, unless they are abstract. -/
theorem instantiate_of_kind {hp : Heap} (hc : t.find? c.id = some c) (hk : c.kind = .plain ∨ c.kind = .record) :
    t.instantiate c.id hp =
      if c.modifiers.isAbstract then .error (.invalidDeclaration (.abstractInstance c.id)) hp
      else t.instantiatePlain c hp := by
  unfold instantiate
  rw [bind_of_ok (ofExcept_eq_ok_iff.2 ⟨lookup_eq_ok_iff.2 hc, rfl⟩)]
  rcases hk with hk | hk <;> simp only [hk] <;> split <;> rfl

/-- An object of a class has the defaults of the fields of the superclass chain in its slots. -/
theorem instantiatePlain_eq_object {ref : Ref} {h' : Heap}
    (hnew : t.instantiatePlain c h = .ok (.object ref) h') :
    t.isAssignable .list c.id = false ∧ t.isAssignable .map c.id = false ∧
      ∃ chain slots h₁, t.superclassChain c = .ok chain ∧
        t.addDefaults .empty (chainFields chain) h = .ok slots h₁ ∧
        (.object ref, h') = h₁.allocObject c.id slots := by
  unfold instantiatePlain at hnew
  split at hnew
  · cases hnew
  split at hnew
  · cases hnew
  split at hnew
  · cases hnew
  split at hnew
  · cases hnew
  obtain ⟨chain, h₁, hchain, h₂⟩ := bind_eq_ok_iff.1 hnew
  obtain ⟨hcs, rfl⟩ := ofExcept_eq_ok_iff.1 hchain
  obtain ⟨slots, h₃, hslots, h₄⟩ := bind_eq_ok_iff.1 h₂
  cases h₄
  rename_i hlist hmap
  exact ⟨by simpa using hlist, by simpa using hmap, chain, slots, h₃, hcs, hslots, rfl⟩

/-- Such an object is behind all others. -/
theorem instantiatePlain_fresh {ref : Ref} {h' : Heap} (hnew : t.instantiatePlain c h = .ok (.object ref) h') :
    ref = ⟨c.id, h.objects.size⟩ ∧ h'.objects.size = h.objects.size + 1 := by
  obtain ⟨-, -, chain, slots, h₁, -, hslots, halloc⟩ := instantiatePlain_eq_object hnew
  obtain ⟨slots', h₂, hdefaults, hsame⟩ := addDefaults_eq_ok (t := t) Dict.empty (chainFields chain) h
  rw [hdefaults] at hslots
  cases hslots
  cases halloc
  exact ⟨by rw [← hsame], by simp [hsame]⟩

/-- A record gives a new object just when objects of it can be made. -/
theorem instantiate_record_iff (hc : t.find? c.id = some c) (hk : c.kind = .record)
    (hstring : c.id ≠ .string) (hholder : c.id ≠ .holder) :
    (∃ ref h', t.instantiate c.id h = .ok (.object ref) h') ↔ t.MakesObjects c := by
  rw [instantiate_of_kind hc (.inr hk)]
  constructor
  · rintro ⟨ref, h', hnew⟩
    split at hnew
    · cases hnew
    · next habs =>
      obtain ⟨hlist, hmap, chain, -, -, hchain, -⟩ := instantiatePlain_eq_object hnew
      exact ⟨by simpa using habs, hlist, hmap, chain, hchain⟩
  · rintro ⟨hconcrete, hlist, hmap, cs, hcs⟩
    obtain ⟨slots, h', hslots, -⟩ := addDefaults_eq_ok (t := t) Dict.empty (chainFields cs) h
    refine ⟨⟨c.id, h'.objects.size⟩, (h'.allocObject c.id slots).2, ?_⟩
    unfold instantiatePlain
    simp only [hconcrete, hstring, hholder, hlist, hmap, Bool.false_eq_true, if_false]
    rw [bind_of_ok (ofExcept_eq_ok_iff.2 ⟨hcs, rfl⟩), bind_of_ok hslots]
    rfl

/-- The object is one that nothing refers to. -/
theorem instantiate_record_fresh {ref : Ref} {h' : Heap} (hc : t.find? c.id = some c)
    (hk : c.kind = .record) (hnew : t.instantiate c.id h = .ok (.object ref) h') :
    ref = ⟨c.id, h.objects.size⟩ ∧ h'.objects.size = h.objects.size + 1 := by
  rw [instantiate_of_kind hc (.inr hk)] at hnew
  split at hnew
  · cases hnew
  · exact instantiatePlain_fresh hnew

/-- Without a body the constructor answers just what instantiation gives, with the arguments in its
slots. -/
theorem runConstructor_eq_ok_iff {k : Constructor} {args : List Value} {v : Value} {h' : Heap}
    (hk : k.body = none) :
    t.runConstructor c k args h = .ok v h' ↔
      ∃ ref h₁, t.instantiate c.id h = .ok (.object ref) h₁ ∧ v = .object ref ∧
        h' = writeSlots ref ((k.params.map (·.1)).zip args) h₁ := by
  unfold runConstructor
  simp only [hk]
  constructor
  · intro hrun
    obtain ⟨w, h₁, hnew, h₂⟩ := bind_eq_ok_iff.1 hrun
    obtain ⟨ref, h₃, href, h₄⟩ := bind_eq_ok_iff.1 h₂
    obtain ⟨hobject, rfl⟩ := ofExcept_eq_ok_iff.1 href
    obtain ⟨⟨⟩, h₅, hwrite, h₆⟩ := bind_eq_ok_iff.1 h₄
    cases hwrite
    cases h₆
    have hv : v = .object ref := by
      cases v <;> cases hobject
      rfl
    exact ⟨ref, _, hv ▸ hnew, hv, rfl⟩
  · rintro ⟨ref, h₁, hnew, rfl, rfl⟩
    rw [bind_of_ok hnew]
    rfl

end Instantiation

end ClassTable
end Introspect
