import Introspect.Proofs.Models.Requests
import Introspect.Proofs.Models.Runs
import Introspect.Proofs.Text.Numeral
import Introspect.Proofs.Values.Heap

/-!
Writes to lists and arrays under names.

What a write does is said again here in terms of the items alone: which names are indices, when a write is
ignored or refused, and what it makes of the items. Any number of writes through a list or array model
have the outcomes and leave the items that this says.

* `writtenIndex?`, `itemsAfter`, `ItemRules.writeEach`: the rules.
* `indexOfName?_eq`: the names that are indices.
* `writeItem_apply`, `set_follows_rules`: one write.
* `items_of_writes`: any number of writes.
-/

namespace Introspect

open Text

/-! ## Rules -/

/-- The index a name writes: ASCII digits only, worth less than the largest 64-bit size in base ten. -/
def writtenIndex? (name : String) : Option Nat :=
  let digits := name.toList
  let index := Nat.ofDigits 10 (digits.reverse.map fun c => c.toNat - '0'.toNat)
  if digits ≠ [] ∧ digits.all (fun c => '0' ≤ c ∧ c ≤ '9') ∧ index < 2 ^ 64 - 1 then some index
  else none

/-- The items after `v` is written at an index, or why they stay as they are: the write would append more
than the limit, or more than can be allocated. -/
def itemsAfter (limit : Option Nat) (items : List Value) (i : Nat) (v : Value) :
    Except Error (List Value) :=
  if i < items.length then .ok (items.set i v)
  else
    match limit.filter (· < i + 1 - items.length) with
    | some l => .error (.growthLimit i l)
    | none =>
      if 2 ^ 60 ≤ i then .error (.capacity i)
      else .ok (items ++ List.replicate (i - items.length) .null ++ [v])

/-- What decides about a write besides the items. -/
structure ItemRules where
  item : Model
  accepts : Value → Bool
  limit : Option Nat

namespace ItemRules

variable (rules : ItemRules)

def write (items : List Value) (name : String) (v : Value) : Except Error (List Value) :=
  match writtenIndex? name with
  | none => .ok items
  | some i =>
    if v = .null ∧ rules.item.isNullable = false then .ok items
    else if rules.accepts v then itemsAfter rules.limit items i v
    else .error (.typeMismatch rules.item.type.display v.typeName)

/-- What each write makes of the items, and the items that are left in the end. -/
def writeEach : List (String × Value) → List Value → List (Except Error (List Value)) × List Value :=
  Introspect.writeEach fun items w => rules.write items w.1 w.2

end ItemRules

/-! ## Indices -/

theorem isDigit_iff {c : Char} : c.isDigit = true ↔ '0' ≤ c ∧ c ≤ '9' := by
  simp [Char.isDigit, Char.le_def]

/-- The names that are indices, and the indices they write. -/
theorem indexOfName?_eq (name : String) : indexOfName? name = writtenIndex? name := by
  apply Option.ext
  intro i
  have hbound : Config.sizeBound - 1 = 2 ^ 64 - 1 := by decide
  unfold indexOfName? writtenIndex?
  rw [Option.filter_eq_some_iff, natOfChars?_eq_some_iff, hbound]
  simp only [isDigit_iff, List.all_eq_true, decide_eq_true_eq]
  split
  · next h =>
    obtain ⟨hne, hdigits, hlt⟩ := h
    constructor
    · rintro ⟨⟨-, -, hi⟩, -⟩
      exact congrArg some hi
    · intro hi
      cases hi
      exact ⟨⟨hne, hdigits, rfl⟩, hlt⟩
  · next h =>
    constructor
    · rintro ⟨⟨hne, hdigits, hi⟩, hlt⟩
      exact absurd ⟨hne, hdigits, lt_of_eq_of_lt hi hlt⟩ h
    · intro hi
      cases hi

/-- In 64 bits, the size at which a write at the index ends and the number of items it appends are the
true ones. -/
def SizesExact (i length : Nat) : Prop :=
  (UInt64.ofNat i + 1).toNat = i + 1 ∧
    (length ≤ i → (UInt64.ofNat i + 1 - UInt64.ofNat length).toNat = i + 1 - length)

theorem sizesExact_of_index {name : String} {i : Nat} (h : indexOfName? name = some i)
    (length : Nat) : SizesExact i length := by
  have hlt : i < 2 ^ 64 - 1 := by
    have hbound := of_decide_eq_true (Option.filter_eq_some_iff.1 h).2
    simpa [Config.sizeBound] using hbound
  have hsize : (UInt64.ofNat i + 1).toNat = i + 1 := by
    rw [UInt64.toNat_add, UInt64.toNat_ofNat']
    simp
    omega
  refine ⟨hsize, fun hle => ?_⟩
  have hlength : (UInt64.ofNat length).toNat = length := by
    rw [UInt64.toNat_ofNat']
    omega
  rw [UInt64.toNat_sub_of_le _ _ (UInt64.le_iff_toNat_le.2 (by omega)), hsize, hlength]

/-! ## One write -/

theorem checkGrowth_apply (ref : Ref) (length i : Nat) (limit : Option Nat) (r : Registry) :
    ∃ lines, checkGrowth ref length i limit r =
      if i < length then .ok () (r.journaled lines)
      else
        match limit.filter (· < i + 1 - length) with
        | some l => .error (.growthLimit i l) (r.journaled lines)
        | none => .ok () (r.journaled lines) := by
  unfold checkGrowth
  by_cases h : i < length
  · simp only [if_pos h, if_neg (Nat.not_le.2 h)]
    exact ⟨_, rfl⟩
  · simp only [if_neg h, if_pos (Nat.not_lt.1 h)]
    cases limit.filter (· < i + 1 - length) with
    | some l => exact ⟨_, rfl⟩
    | none =>
      by_cases hmore : 1 < i + 1 - length
      · simp only [if_pos hmore]
        exact ⟨_, rfl⟩
      · simp only [if_neg hmore]
        exact ⟨_, rfl⟩

theorem setItem_apply (h : Heap) (ref : Ref) (i : Nat) (v : Value) :
    h.setItem ref i v =
      if i < (h.items ref).length then .ok (h.setItems ref ((h.items ref).set i v))
      else if 2 ^ 60 ≤ i then .error (.capacity i)
      else .ok (h.setItems ref
        (h.items ref ++ List.replicate (i - (h.items ref).length) .null ++ [v])) := by
  have hbound : Heap.allocationLimit = 2 ^ 60 := by decide
  unfold Heap.setItem Heap.writeItem
  rw [hbound]
  by_cases hi : i < (h.items ref).length
  · simp only [if_pos hi, if_neg (show ¬((h.items ref).length ≤ i ∧ 2 ^ 60 ≤ i) by omega)]
  · by_cases hlarge : 2 ^ 60 ≤ i
    · rw [if_pos ⟨by omega, hlarge⟩, if_neg hi, if_pos hlarge]
    · rw [if_neg (by omega), if_neg hi, if_neg hi, if_neg hlarge]

theorem writeItem_apply {this : Value} {ref : Ref} (href : this.asSequence = .ok ref) (i : Nat)
    (limit : Option Nat) (v : Value) (s : Store) :
    ∃ lines, writeItem i limit this v s =
      match itemsAfter limit (s.heap.items ref) i v with
      | .ok items => .ok this ⟨s.heap.setItems ref items, s.registry.journaled lines⟩
      | .error e => .error e ⟨s.heap, s.registry.journaled lines⟩ := by
  obtain ⟨lines, hgrowth⟩ := checkGrowth_apply ref (s.heap.items ref).length i limit s.registry
  have hset := setItem_apply s.heap ref i v
  refine ⟨lines, ?_⟩
  unfold writeItem itemsAfter
  rw [href, bind_of_ok (ofExcept_ok ref s), bind_of_ok (get_apply s)]
  by_cases h : i < (s.heap.items ref).length
  · rw [if_pos h] at hgrowth hset ⊢
    rw [bind_of_ok (Store.onRegistry_of_ok hgrowth), bind_of_ok (get_apply _), hset]
    rfl
  · rw [if_neg h] at hgrowth hset ⊢
    cases hl : limit.filter (· < i + 1 - (s.heap.items ref).length) with
    | some l =>
      simp only [hl] at hgrowth ⊢
      rw [bind_of_error (Store.onRegistry_of_error hgrowth)]
    | none =>
      simp only [hl] at hgrowth ⊢
      rw [bind_of_ok (Store.onRegistry_of_ok hgrowth), bind_of_ok (get_apply _), hset]
      split <;> rfl

/-! ## One write under a name -/

section Write

variable {m item : Model} {others : List Model} {r reg : Registry}

theorem property?_of_items (hkind : m.kind = .list ∨ m.kind = .array) (name : String) :
    m.property? name = m.itemProperty? name := by
  unfold Model.property?
  rcases hkind with hkind | hkind
  · simp only [hkind]
  · simp only [hkind]

theorem property?_of_not_index (hkind : m.kind = .list ∨ m.kind = .array) {name : String}
    (hname : indexOfName? name = none) : m.property? name reg = .ok none reg := by
  rw [property?_of_items hkind]
  unfold Model.itemProperty?
  rw [hname]
  rfl

theorem property?_of_index (hkind : m.kind = .list ∨ m.kind = .array)
    (hps : m.parameters reg = .ok (item :: others) r) (hlive : r.live = true) {name : String}
    {i : Nat} (hname : indexOfName? name = some i) :
    m.property? name reg = .ok (some (.ofIndex item i r.config.growthLimit)) r := by
  have hrequire : Registry.requireLive r = .ok () r := by
    rw [Registry.requireLive_apply, if_pos hlive]
  rw [property?_of_items hkind]
  unfold Model.itemProperty?
  rw [hname]
  simp only
  rw [bind_of_ok hps]
  simp only [List.head?_cons]
  rw [bind_of_ok hrequire, bind_of_ok (get_apply r)]
  rfl

/-- The rules of a list or array with this item model, in a registry. -/
def itemRules (item : Model) (r : Registry) : ItemRules :=
  ⟨item, r.accepts item, r.config.growthLimit⟩

theorem ignoresWrite_ofIndex {this : Value} {ref : Ref} (href : this.asSequence = .ok ref)
    (i : Nat) (limit : Option Nat) (v : Value) :
    ignoresWrite (.ofIndex item i limit) this v = true ↔ v = .null ∧ item.isNullable = false := by
  have hthis : this.isNull = false := by
    cases this with
    | null => cases href
    | _ => rfl
  have hv : v.isNull = true ↔ v = .null := by
    cases v with
    | null => exact iff_of_true rfl rfl
    | _ => exact iff_of_false Bool.false_ne_true (by rintro ⟨⟩)
  unfold ignoresWrite
  rw [hthis, Bool.false_or, Bool.and_eq_true, hv, Bool.not_eq_true']
  rfl

/-- A write has the outcome that the rules say, and leaves the items that they say. -/
theorem set_follows_rules (hkind : m.kind = .list ∨ m.kind = .array) (hlive : r.live = true)
    {s : Store} (hps : m.Gives (item :: others) r s.registry) {this : Value} {ref : Ref}
    (href : this.asSequence = .ok ref) (name : String) (v : Value) :
    ∃ reg, m.Gives (item :: others) r reg ∧
      m.set this name v s =
        match (itemRules item r).write (s.heap.items ref) name v with
        | .ok items => .ok this ⟨s.heap.setItems ref items, reg⟩
        | .error e => .error e ⟨s.heap, reg⟩ := by
  have hindex := indexOfName?_eq name
  cases hname : indexOfName? name with
  | none =>
    have hrules : (itemRules item r).write (s.heap.items ref) name v = .ok (s.heap.items ref) := by
      unfold ItemRules.write
      rw [← hindex, hname]
    refine ⟨s.registry, hps, ?_⟩
    rw [Model.set_of_property (property?_of_not_index hkind hname), hrules]
    simp only [Heap.setItems_items]
    rfl
  | some i =>
    have hrules : (itemRules item r).write (s.heap.items ref) name v =
        if v = .null ∧ item.isNullable = false then .ok (s.heap.items ref)
        else if r.accepts item v then itemsAfter r.config.growthLimit (s.heap.items ref) i v
        else .error (.typeMismatch item.type.display v.typeName) := by
      unfold ItemRules.write
      rw [← hindex, hname]
      rfl
    have hignored : ignoresWrite (.ofIndex item i r.config.growthLimit) this v = true ↔
        v = .null ∧ item.isNullable = false := ignoresWrite_ofIndex href i _ v
    have hagain := hps.again
    obtain ⟨lines, hparameters⟩ := hps
    have hproperty : m.property? name s.registry =
        .ok (some (.ofIndex item i r.config.growthLimit)) (r.journaled lines) :=
      property?_of_index hkind hparameters hlive hname
    rw [Model.set_of_property hproperty, hrules]
    by_cases hnull : v = .null ∧ item.isNullable = false
    · refine ⟨r.journaled lines, hagain lines, ?_⟩
      rw [if_pos hnull, setProperty_ignored (hignored.2 hnull)]
      simp only [Heap.setItems_items]
    have hi := Bool.eq_false_iff.2 (mt hignored.1 hnull)
    cases haccepts : r.accepts item v with
    | false =>
      refine ⟨r.journaled lines, hagain lines, ?_⟩
      rw [if_neg hnull, if_neg Bool.false_ne_true]
      exact setProperty_of_refused hi haccepts
    | true =>
      obtain ⟨more, hwrite⟩ := writeItem_apply href i r.config.growthLimit v
        { s with registry := r.journaled lines }
      refine ⟨r.journaled more, hagain more, ?_⟩
      rw [if_neg hnull, if_pos rfl]
      exact (setProperty_of_accepted hi haccepts).trans hwrite

theorem set_keeps_rules (hkind : m.kind = .list ∨ m.kind = .array) (hlive : r.live = true)
    {this : Value} {ref : Ref} (href : this.asSequence = .ok ref) {h : Heap}
    (hin : ref.index < h.sequences.size) {items : List Value} {s : Store}
    (hps : m.Gives (item :: others) r s.registry) (hs : s.heap = h.setItems ref items)
    {name : String} {v : Value} :
    let result := (itemRules item r).write items name v
    outcome (m.set this name v) s = result.map (fun _ => this) ∧
      m.Gives (item :: others) r (after (m.set this name v) s).registry ∧
        (after (m.set this name v) s).heap = h.setItems ref (result.toOption.getD items) := by
  intro result
  obtain ⟨reg, hreg, hset⟩ := set_follows_rules hkind hlive hps href name v
  rw [hs, h.items_setItems hin] at hset
  cases hresult : (itemRules item r).write items name v with
  | ok items' =>
    simp only [hresult, Heap.setItems_setItems] at hset
    rw [after_of_ok hset, outcome_of_ok hset]
    simp only [result, hresult]
    exact ⟨rfl, hreg, rfl⟩
  | error e =>
    simp only [hresult] at hset
    rw [after_of_error hset, outcome_of_error hset]
    simp only [result, hresult]
    exact ⟨rfl, hreg, rfl⟩

end Write

/-! ## Any number of writes -/

/-- Whatever was done with the registry before, and whatever the items are: writes under names through a
list or array model have the outcomes and leave the items that the rules say, with the growth limit of the
configuration, and nothing else on the heap changes. No size on the way leaves 64 bits. -/
theorem items_of_writes (config : Config) (ops : List Operation) {m item : Model}
    {others : List Model} {r : Registry} {this : Value} {ref : Ref}
    (hm : m ∈ (reached config ops).registry.models) (hkind : m.kind = .list ∨ m.kind = .array)
    (hps : m.parameters (reached config ops).registry = .ok (item :: others) r)
    (hlive : (reached config ops).registry.live = true) (href : this.asSequence = .ok ref)
    (hin : ref.index < (reached config ops).heap.sequences.size) (writes : List (String × Value)) :
    let s := reached config ops
    let rules : ItemRules := ⟨item, r.accepts item, s.registry.config.growthLimit⟩
    let left := rules.writeEach writes (s.heap.items ref)
    (m.setEach this writes s).1 = left.1.map (Except.map fun _ => this) ∧
      (m.setEach this writes s).2.heap.items ref = left.2 ∧
      (m.setEach this writes s).2.heap = s.heap.setItems ref left.2 ∧
      ∀ name i, indexOfName? name = some i → ∀ length, SizesExact i length := by
  intro s rules left
  obtain ⟨hconfig, hlives⟩ := Model.parameters_settings (reached_valid config ops) hm hps
  have hrules : itemRules item r = rules := by
    unfold itemRules
    rw [hconfig]
  -- the items stand at `ref`; the rest of the heap and the model's parameters are as at the start
  obtain ⟨houtcomes, -, hheap⟩ := Model.setEach_simulates
    (R := fun items t => m.Gives (item :: others) r t.registry ∧ t.heap = s.heap.setItems ref items)
    this
    (fun w _ items t ht => set_keeps_rules hkind (hlives.trans hlive) href hin ht.1 ht.2)
    ⟨Model.gives_of_parameters hps, (s.heap.setItems_items ref).symm⟩
  rw [hrules] at houtcomes hheap
  refine ⟨houtcomes, ?_, hheap, fun name i h => sizesExact_of_index h⟩
  rw [hheap]
  exact s.heap.items_setItems hin left.2

/-- A list of integers that may grow by three items at a time: two writes that are made, one of a value that
is no integer and one that would append four items. -/
theorem items_of_writes_ints :
    let ints : TypeExpr := .apply .list [.named PrimitiveKind.int32.primitiveId]
    let made : HeapM Unit := modify fun h => (h.allocList ⟨"ArrayList"⟩ []).2
    let s := reached { growthLimit := some 3 } [.ofType ints, .onHeap fun _ => made]
    let m := (s.registry.models[0]?).getD default
    let this : Value := .list ⟨⟨"ArrayList"⟩, 0⟩
    let writes : List (String × Value) :=
      [("1", .int32 7), ("00", .int32 5), ("0", .text "7"), ("5", .int32 9)]
    let left := m.setEach this writes s
    left.1 = [.ok this, .ok this, .error (.typeMismatch "i32" "String"),
        .error (.growthLimit 5 3)] ∧
      left.2.heap.items ⟨⟨"ArrayList"⟩, 0⟩ = [.int32 5, .int32 7] := by
  intro ints made s m this writes left
  let c := (s.registry.contents? m).getD default
  let item := c.parameters.head?.getD default
  have hm : m ∈ s.registry.models := Registry.model_mem (by decide +kernel)
  have hps : m.parameters s.registry = .ok [item] s.registry :=
    Model.parameters_of_single (by decide +kernel) (by decide +kernel)
  have hkind : m.kind = .list := by decide +kernel
  obtain ⟨houtcomes, hitems, -⟩ := items_of_writes { growthLimit := some 3 }
    [.ofType ints, .onHeap fun _ => made] hm (.inl hkind) hps (by decide +kernel)
    (show this.asSequence = .ok ⟨⟨"ArrayList"⟩, 0⟩ from rfl) (by decide +kernel) writes
  refine ⟨houtcomes.trans ?_, hitems.trans ?_⟩
  · decide +kernel
  · decide +kernel

end Introspect
