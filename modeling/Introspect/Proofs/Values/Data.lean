import Introspect.Proofs.Values.Heap
import Introspect.Values.Data
import Mathlib.Data.List.Forall2

/-!
Conversion of plain data to values and back.

Data that is written is read again as it was, also later, when more stands on the heap. The converse holds
up to references: a value that is read and written back keeps its scalars and nulls, and each of its lists
and arrays becomes a new list with items of the same structure.

* `DataType.optionalsApart`, `DataType.textless`: the types of which this is true.
* `Mirrors`: two values, each on its heap, of the same structure.
* `read_write`, `mirrors_write`: the two directions.
* `data_round_trip`: both.
-/

namespace Introspect

/-! ## Types -/

namespace DataType

/-- No optional stands directly in an optional. -/
def optionalsApart : DataType → Bool
  | .scalar _ | .text => true
  | .optional (.optional _) => false
  | .optional inner => inner.optionalsApart
  | .list item => item.optionalsApart

/-- No scalar is a text. -/
def textless : DataType → Bool
  | .scalar _ => true
  | .text => false
  | .optional inner => inner.textless
  | .list item => item.textless

end DataType

/-! ## Structure of a value -/

/-- The value on the second heap has the structure of the value on the first: the same scalar or null, or
a list whose items have, in order, the structure of the items of the list or array. -/
inductive Mirrors (h h' : Heap) : Value → Value → Prop where
  | null : Mirrors h h' .null .null
  | scalar {v : Value} (hv : v.primitiveKind?.isSome) : Mirrors h h' v v
  | items {v : Value} {ref ref' : Ref} (hv : v.asSequence = .ok ref)
      (hitems : List.Forall₂ (Mirrors h h') (h.items ref) (h'.items ref')) :
      Mirrors h h' v (.list ref')

/-! ## Scalars -/

theorem PrimitiveKind.read_write (kind : PrimitiveKind) (x : kind.Data) :
    kind.read (kind.write x) = .ok x := by
  cases kind <;> rfl

/-- A scalar is read only from the value that it is written as. -/
theorem PrimitiveKind.write_of_read {kind : PrimitiveKind} {v : Value} {x : kind.Data}
    (h : kind.read v = .ok x) : kind.write x = v := by
  cases kind <;> cases v <;> cases h <;> rfl

theorem PrimitiveKind.write_primitiveKind? (kind : PrimitiveKind) (x : kind.Data) :
    (kind.write x).primitiveKind? = some kind := by
  cases kind <;> rfl

/-! ## Items -/

/-- Items are read one by one. -/
theorem mapM_eq_ok_iff {ε α β : Type} {f : α → Except ε β} {as : List α} {bs : List β} :
    as.mapM f = .ok bs ↔ List.Forall₂ (fun a b => f a = .ok b) as bs := by
  induction as generalizing bs with
  | nil => simp [pure, Except.pure, eq_comm]
  | cons a as ih =>
    rw [List.mapM_cons, List.forall₂_cons_left_iff]
    constructor
    · intro h
      obtain ⟨b, hb, h⟩ := except_bind_eq_ok h
      obtain ⟨rest, hrest, h⟩ := except_bind_eq_ok h
      cases h
      exact ⟨b, rest, hb, ih.1 hrest, rfl⟩
    · rintro ⟨b, rest, hb, hrest, rfl⟩
      rw [hb, ih.2 hrest]
      rfl

theorem forall₂_through {α β γ : Type} {P : α → β → Prop} {S : α → γ → Prop} {as : List α}
    {bs : List β} {cs : List γ} (hp : List.Forall₂ P as bs)
    (hs : List.Forall₂ (fun b c => ∀ a, P a b → S a c) bs cs) : List.Forall₂ S as cs := by
  induction hp generalizing cs with
  | nil =>
    cases hs
    exact .nil
  | cons ha _ ih =>
    cases hs with
    | cons hc hcs => exact .cons (hc _ ha) (ih hcs)

namespace DataType

section WriteAll

variable {α : Type} {write : α → Heap → Value × Heap}
  (hwrite : ∀ a (h : Heap), h.Intact (write a h).2)
include hwrite

theorem writeAll_intact (as : List α) (h : Heap) : h.Intact (writeAll write as h).2 := by
  induction as generalizing h with
  | nil => exact Heap.Intact.refl h
  | cons a as ih => exact Heap.Intact.trans _ _ _ (hwrite a h) (ih _)

/-- What relates an item to its written form, as long as the heap keeps that, relates all of them: the items
written later leave the heap as it was. -/
theorem writeAll_forall₂ {h' : Heap} {R : α → Value → Prop}
    (hrelated : ∀ a h, (write a h).2.Intact h' → R a (write a h).1) (as : List α) (h : Heap)
    (hkept : (writeAll write as h).2.Intact h') : List.Forall₂ R as (writeAll write as h).1 := by
  induction as generalizing h with
  | nil => exact .nil
  | cons a as ih =>
    have hrest := writeAll_intact hwrite as (write a h).2
    exact .cons (hrelated a h (Heap.Intact.trans _ _ _ hrest hkept)) (ih _ hkept)

end WriteAll

theorem kept_of_allocList {cls : ClassId} {vs : List Value} {h h' : Heap}
    (hkept : (h.allocList cls vs).2.Intact h') : h.Intact h' :=
  Heap.Intact.trans _ _ _ (h.allocSequence_intact cls vs) hkept

/-- The items of a new list are there as long as the heap keeps what it has. -/
theorem items_of_allocList {cls : ClassId} {vs : List Value} {h h' : Heap}
    (hkept : (h.allocList cls vs).2.Intact h') : h'.items ⟨cls, h.sequences.size⟩ = vs := by
  have hthere : (h.allocList cls vs).2.sequences[h.sequences.size]? = some vs :=
    Array.getElem?_push_size
  unfold Heap.items
  rw [hkept.sequences _ _ hthere, Option.getD_some]

/-! ## Written data -/

theorem write_intact (ty : DataType) (x : ty.Data) (h : Heap) : h.Intact (ty.write x h).2 := by
  induction ty generalizing h with
  | scalar kind => exact Heap.Intact.refl h
  | text => exact Heap.Intact.refl h
  | optional inner ih =>
    cases x with
    | none => exact Heap.Intact.refl h
    | some y => exact ih y h
  | list item ih =>
    exact Heap.Intact.trans _ _ _ (writeAll_intact ih x h)
      (Heap.allocSequence_intact _ .arrayList _)

/-- Only an optional is written as null. -/
theorem write_isNull {ty : DataType} (hty : ∀ inner, ty ≠ .optional inner) (x : ty.Data) (h : Heap) :
    (ty.write x h).1.isNull = false := by
  cases ty with
  | scalar kind => cases kind <;> rfl
  | text => rfl
  | optional inner => exact absurd rfl (hty inner)
  | list item => rfl

theorem optionalsApart_optional {inner : DataType} (h : (optional inner).optionalsApart = true) :
    inner.optionalsApart = true ∧ ∀ deeper, inner ≠ .optional deeper := by
  cases inner with
  | optional deeper => cases h
  | _ => exact ⟨h, nofun⟩

/-- Data that was written is read as long as the heap keeps what it has. -/
theorem read_write {ty : DataType} (hty : ty.optionalsApart = true) (x : ty.Data) (h h' : Heap)
    (hkept : (ty.write x h).2.Intact h') : ty.read h' (ty.write x h).1 = .ok x := by
  induction ty generalizing h with
  | scalar kind => exact kind.read_write x
  | text => rfl
  | optional inner ih =>
    obtain ⟨hinner, hdeeper⟩ := optionalsApart_optional hty
    cases x with
    | none => rfl
    | some y =>
      have hread : (inner.read h' (inner.write y h).1).map some = .ok (some y) := by
        rw [ih hinner y h hkept]
        rfl
      unfold read write
      rwa [write_isNull hdeeper, if_neg Bool.false_ne_true]
  | list item ih =>
    have hitems : List.Forall₂ (fun a v => item.read h' v = .ok a) x (writeAll item.write x h).1 :=
      writeAll_forall₂ item.write_intact (fun a h => ih hty a h) x h (kept_of_allocList hkept)
    show (h'.items _).mapM (item.read h') = .ok x
    rw [items_of_allocList hkept]
    exact mapM_eq_ok_iff.2 hitems.flip

/-- Data that was read from a value is written as one of the same structure. -/
theorem mirrors_write {ty : DataType} (hty : ty.textless = true) {h : Heap} {v : Value} {x : ty.Data}
    (hread : ty.read h v = .ok x) (h₁ h' : Heap) (hkept : (ty.write x h₁).2.Intact h') :
    Mirrors h h' v (ty.write x h₁).1 := by
  induction ty generalizing v h₁ with
  | scalar kind =>
    have hv : kind.write x = v := PrimitiveKind.write_of_read hread
    refine hv ▸ .scalar ?_
    rw [kind.write_primitiveKind?]
    rfl
  | text => cases hty
  | optional inner ih =>
    unfold read at hread
    split at hread
    · next hnull =>
      cases hread
      cases v with
      | null => exact .null
      | _ => cases hnull
    · obtain ⟨y, hy, hxy⟩ := except_map_eq_ok hread
      cases hxy
      exact ih hty hy h₁ hkept
  | list item ih =>
    unfold read at hread
    obtain ⟨ref, href, hmap⟩ := except_bind_eq_ok hread
    have hitems : List.Forall₂ (fun u a => item.read h u = .ok a) (h.items ref) x :=
      mapM_eq_ok_iff.1 hmap
    refine .items href ?_
    rw [items_of_allocList hkept]
    exact forall₂_through hitems (writeAll_forall₂ item.write_intact
      (fun a h₁ hk u hu => ih hty hu h₁ hk) x h₁ (kept_of_allocList hkept))

/-- Writing what was read only adds to the heap. -/
theorem roundTrip_of_read {ty : DataType} {h : Heap} {v : Value} {x : ty.Data}
    (hread : ty.read h v = .ok x) :
    ty.roundTrip v h = .ok (ty.write x h).1 (ty.write x h).2 := by
  unfold roundTrip
  rw [bind_of_ok (get_apply h), hread, bind_of_ok (ofExcept_ok x h)]
  rfl

end DataType

/-! ## Both directions -/

/-- Where no optional stands directly in an optional, data that is written is read again as it was. Where no
scalar is a text, a value that is read is written back with its structure. What was on the heap stays as it
was, and what comes later changes nothing as long as it leaves the rest of the heap alone. -/
theorem data_round_trip (ty : DataType) :
    (ty.optionalsApart = true → ∀ (x : ty.Data) (h h' : Heap), (ty.write x h).2.Intact h' →
      ty.read h' (ty.write x h).1 = .ok x) ∧
    (ty.textless = true → ∀ (h : Heap) (v : Value) (x : ty.Data), ty.read h v = .ok x →
      (∀ h₁ h' : Heap, (ty.write x h₁).2.Intact h' → Mirrors h h' v (ty.write x h₁).1) ∧
      ∃ w h', ty.roundTrip v h = .ok w h' ∧ h.Intact h' ∧ Mirrors h h' v w) :=
  ⟨fun hty x h h' => DataType.read_write hty x h h', fun hty h _ x hread =>
    ⟨DataType.mirrors_write hty hread, _, _, DataType.roundTrip_of_read hread, ty.write_intact x h,
      DataType.mirrors_write hty hread h _ (Heap.Intact.refl _)⟩⟩

/-- An array of no list and of a list of two integers. -/
theorem data_round_trip_rows :
    let rows : DataType := .list (.optional (.list (.scalar .int32)))
    let h : Heap := { Heap.empty with
      sequences := #[[.null, .list ⟨.arrayList, 1⟩], [.int32 1, .int32 2]] }
    let v : Value := .array ⟨⟨"i32[][]"⟩, 0⟩
    let x : rows.Data := [none, some [1, 2]]
    rows.read h v = .ok x ∧ rows.read (rows.write x h).2 (rows.write x h).1 = .ok x ∧
      Mirrors h (rows.write x h).2 v (rows.write x h).1 := by
  intro rows h v x
  have hread : rows.read h v = .ok x := rfl
  obtain ⟨hback, hsame⟩ := data_round_trip rows
  exact ⟨hread, hback rfl x h _ (Heap.Intact.refl _),
    (hsame rfl h v x hread).1 h _ (Heap.Intact.refl _)⟩

example :
    let ty : DataType := .optional (.optional (.scalar .bool))
    ty.read .empty (ty.write (some none) .empty).1 = .ok none := rfl

end Introspect
