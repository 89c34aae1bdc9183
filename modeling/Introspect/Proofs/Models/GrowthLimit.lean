import Introspect.Proofs.Models.ItemNames

/-!
The growth limit that a property of an item enforces.

A list or array model hands out properties of its items by name and on walks. The limit is read then, and
the property keeps it: a later write through the property appends at most as much as the configuration
allowed at that time, whatever it allows now.

* `handedOut_limit`: every property of an item carries the limit in force when it was handed out.
* `write_through_item`: what a write through such a property appends, at any later time, and exactly which
  writes append more than the configuration allows then.
* `retained_limit_outdated`: a write that does.
-/

namespace Introspect

/-- No sequence is longer than it was by more than the limit. -/
def Heap.GrewWithin (limit : Option Nat) (h h' : Heap) : Prop :=
  ∀ l, limit = some l → ∀ ref : Ref, (h'.items ref).length ≤ (h.items ref).length + l

/-! ## Properties of items -/

/-- A property that a list or array model of the store hands out, for a name or on a walk. -/
inductive HandedOut (s : Store) : Property → Prop where
  | byName {m : Model} {name : String} {p : Property} {r : Registry} (hm : m ∈ s.registry.models)
      (hkind : m.kind = .list ∨ m.kind = .array)
      (h : m.property? name s.registry = .ok (some p) r) : HandedOut s p
  | onWalk {m : Model} {this : Value} {visits : List Visit} {visit : Visit} {t : Store}
      (hm : m ∈ s.registry.models) (hkind : m.kind = .list ∨ m.kind = .array)
      (h : m.walk this s = .ok visits t) (hvisit : visit ∈ visits) : HandedOut s visit.property

section Limit

variable {m : Model}

theorem property?_limit {reg r : Registry} {name : String} {p : Property} (hv : reg.Valid)
    (hm : m ∈ reg.models) (hkind : m.kind = .list ∨ m.kind = .array)
    (h : m.property? name reg = .ok (some p) r) :
    ∃ item i, p = .ofIndex item i reg.config.growthLimit := by
  obtain ⟨item, others, i, -, -, -, hp⟩ := property?_eq_some hv hm hkind h
  exact ⟨item, i, hp⟩

theorem itemVisits_limit {item : Model} {limit : Option Nat} {items : List Value} {i : Nat}
    {visit : Visit} (h : visit ∈ itemVisits item limit i items) :
    ∃ j, visit.property = .ofIndex item j limit := by
  induction items generalizing i with
  | nil => cases h
  | cons v vs ih =>
    rcases List.mem_cons.1 h with rfl | h
    · exact ⟨i, rfl⟩
    · exact ih h

theorem walkItems_limit {this : Value} {s t : Store} {visits : List Visit}
    (hv : s.registry.Valid) (hm : m ∈ s.registry.models)
    (h : m.walkItems this s = .ok visits t) :
    ∀ visit ∈ visits, ∃ item i, visit.property = .ofIndex item i s.registry.config.growthLimit := by
  unfold Model.walkItems at h
  obtain ⟨ps, s₁, hps, h⟩ := bind_eq_ok_iff.1 h
  obtain ⟨r, hparameters, rfl⟩ := Store.onRegistry_eq_ok hps
  cases hhead : ps.head? with
  | none =>
    simp only [hhead] at h
    cases h
    intro visit hvisit
    cases hvisit
  | some item =>
    simp only [hhead] at h
    obtain ⟨_, s₂, hlive, h⟩ := bind_eq_ok_iff.1 h
    cases Store.requireLive_eq_ok hlive
    rw [bind_of_ok (get_apply _)] at h
    obtain ⟨ref, s₃, href, h⟩ := bind_eq_ok_iff.1 h
    obtain ⟨-, rfl⟩ := ofExcept_eq_ok_iff.1 href
    cases h
    intro visit hvisit
    obtain ⟨i, hi⟩ := itemVisits_limit hvisit
    exact ⟨item, i, by rw [hi, ← (Model.parameters_settings hv hm hparameters).1]⟩

theorem walk_of_items {this : Value} {s t : Store} {visits : List Visit}
    (hkind : m.kind = .list ∨ m.kind = .array) (h : m.walk this s = .ok visits t) :
    visits = [] ∨ m.walkItems this s = .ok visits t := by
  unfold Model.walk at h
  obtain ⟨vs, s', hvisits, h⟩ := bind_eq_ok_iff.1 h
  unfold Model.visits at hvisits
  by_cases hnull : this.isNull = true
  · rw [if_pos hnull] at hvisits
    cases hvisits
    cases h
    exact .inl rfl
  · have hitems : (do return (← m.walkItems this).map pure : StoreM (List (StoreM Visit))) s =
        .ok vs s' := by
      rw [if_neg hnull] at hvisits
      rcases hkind with hkind | hkind
      · simpa only [hkind] using hvisits
      · simpa only [hkind] using hvisits
    obtain ⟨listed, s₁, hlisted, hmap⟩ := bind_eq_ok_iff.1 hitems
    cases hmap
    rw [Model.mapM_visits] at h
    cases h
    exact .inr hlisted

end Limit

/-- Every property of an item carries the growth limit in force when it was handed out. -/
theorem handedOut_limit {s : Store} {p : Property} (hv : s.registry.Valid) (h : HandedOut s p) :
    ∃ item i, p = .ofIndex item i s.registry.config.growthLimit := by
  cases h with
  | byName hm hkind h => exact property?_limit hv hm hkind h
  | onWalk hm hkind h hvisit =>
    rcases walk_of_items hkind h with rfl | hitems
    · cases hvisit
    · exact walkItems_limit hv hm hitems _ hvisit

/-! ## A write through such a property -/

section Write

variable {limit : Option Nat} {items items' : List Value} {i : Nat} {v : Value}

/-- A write that is made appends no more than the limit and than can be allocated. -/
theorem itemsAfter_eq_ok (h : itemsAfter limit items i v = .ok items') :
    items'.length = max items.length (i + 1) ∧
      (items.length ≤ i → i < 2 ^ 60 ∧ ∀ l, limit = some l → i + 1 ≤ items.length + l) := by
  unfold itemsAfter at h
  split at h
  · cases h
    refine ⟨?_, fun hle => by omega⟩
    rw [List.length_set]
    omega
  · split at h
    · cases h
    · next hlimit =>
      split at h
      · cases h
      · cases h
        refine ⟨?_, fun _ => ⟨by omega, fun l hl => ?_⟩⟩
        · simp only [List.length_append, List.length_replicate, List.length_singleton]
          omega
        · have hfits := Option.filter_eq_none_iff.1 hlimit l hl
          simp only [decide_eq_true_eq] at hfits
          omega

theorem itemsAfter_of_fits (v : Value) (hlarge : i < 2 ^ 60)
    (hlimit : ∀ l, limit = some l → i + 1 ≤ items.length + l) :
    ∃ items', itemsAfter limit items i v = .ok items' := by
  unfold itemsAfter
  split
  · exact ⟨_, rfl⟩
  · have hnone : limit.filter (· < i + 1 - items.length) = none := by
      refine Option.filter_eq_none_iff.2 fun l hl => ?_
      have := hlimit l hl
      simp only [decide_eq_true_eq]
      omega
    rw [hnone]
    simp only [if_neg (Nat.not_le.2 hlarge)]
    exact ⟨_, rfl⟩

theorem Heap.GrewWithin.refl (limit : Option Nat) (h : Heap) : h.GrewWithin limit h :=
  fun l _ ref => Nat.le_add_right (h.items ref).length l

theorem Heap.grewWithin_setItems {h : Heap} {ref : Ref}
    (hfits : ∀ l, limit = some l → ref.index < h.sequences.size →
      items.length ≤ (h.items ref).length + l) : h.GrewWithin limit (h.setItems ref items) := by
  intro l hl other
  by_cases hin : ref.index < h.sequences.size
  · by_cases hsame : ref.index = other.index
    · have hother : (h.setItems ref items).items other = items := by
        simpa only [Heap.items, hsame] using h.items_setItems hin items
      have hbefore : h.items ref = h.items other := by
        simp only [Heap.items, hsame]
      rw [hother, ← hbefore]
      exact hfits l hl hin
    · rw [h.items_setItems_of_ne hsame]
      exact Nat.le_add_right _ l
  · have hunchanged : h.setItems ref items = h := by
      unfold Heap.setItems
      rw [Array.setIfInBounds_eq_of_size_le (Nat.not_lt.1 hin)]
    rw [hunchanged]
    exact Nat.le_add_right _ l

variable {item : Model} {this : Value} {s : Store}

theorem setProperty_item {a : Value} {t : Store}
    (h : setProperty this (some (.ofIndex item i limit)) v s = .ok a t) :
    t.heap = s.heap ∨ ∃ ref items, this.asSequence = .ok ref ∧
      ignoresWrite (.ofIndex item i limit) this v = false ∧ s.registry.accepts item v = true ∧
      itemsAfter limit (s.heap.items ref) i v = .ok items ∧ t.heap = s.heap.setItems ref items := by
  cases hi : ignoresWrite (.ofIndex item i limit) this v with
  | true =>
    rw [setProperty_ignored hi] at h
    cases h
    exact .inl rfl
  | false =>
    cases ha : s.registry.accepts item v with
    | false =>
      rw [setProperty_of_refused hi ha] at h
      cases h
    | true =>
      rw [setProperty_of_accepted hi ha] at h
      replace h : writeItem i limit this v s = .ok a t := h
      cases href : this.asSequence with
      | error e =>
        unfold writeItem at h
        rw [href, bind_of_error (ofExcept_error e s)] at h
        cases h
      | ok ref =>
        obtain ⟨lines, hwrite⟩ := writeItem_apply href i limit v s
        rw [hwrite] at h
        cases hitems : itemsAfter limit (s.heap.items ref) i v with
        | error e => simp only [hitems] at h; cases h
        | ok items =>
          simp only [hitems] at h
          cases h
          exact .inr ⟨ref, items, rfl, rfl, rfl, hitems, rfl⟩

/-- A write that is made appends no more than the limit that the property carries. -/
theorem write_within_carried {a : Value} {t : Store}
    (h : setProperty this (some (.ofIndex item i limit)) v s = .ok a t) :
    s.heap.GrewWithin limit t.heap := by
  rcases setProperty_item h with hheap | ⟨ref, items, -, -, -, hitems, hheap⟩
  · rw [hheap]
    exact Heap.GrewWithin.refl _ _
  · obtain ⟨hlength, hfits⟩ := itemsAfter_eq_ok hitems
    rw [hheap]
    refine Heap.grewWithin_setItems fun l hl _ => ?_
    rw [hlength]
    by_cases hle : (s.heap.items ref).length ≤ i
    · have hfit := (hfits hle).2 l hl
      omega
    · omega

/-- The write takes more items than the configuration allows, but the property lets it: the value is taken,
the items can be allocated, and the limit that the property carries is not exceeded. -/
def Outgrows (s : Store) (p : Property) (this v : Value) : Prop :=
  ∃ ref i carried now, this.asSequence = .ok ref ∧ ref.index < s.heap.sequences.size ∧
    p.access = .index i carried ∧ s.registry.config.growthLimit = some now ∧
    ignoresWrite p this v = false ∧ s.registry.accepts p.model v = true ∧ i < 2 ^ 60 ∧
    (s.heap.items ref).length + now < i + 1 ∧
    ∀ l, carried = some l → i + 1 ≤ (s.heap.items ref).length + l

theorem write_of_outgrows (h : Outgrows s (.ofIndex item i limit) this v) :
    ∃ t, setProperty this (some (.ofIndex item i limit)) v s = .ok this t ∧
      ¬s.heap.GrewWithin s.registry.config.growthLimit t.heap := by
  obtain ⟨ref, j, carried, now, href, hin, haccess, hnow, hi, ha, hlarge, hmore, hfits⟩ := h
  cases haccess
  obtain ⟨items, hitems⟩ := itemsAfter_of_fits v hlarge hfits
  obtain ⟨lines, hwrite⟩ := writeItem_apply href i limit v s
  rw [hitems] at hwrite
  refine ⟨_, (setProperty_of_accepted hi ha).trans hwrite, fun hgrew => ?_⟩
  have hlength := hgrew now hnow ref
  rw [s.heap.items_setItems hin, (itemsAfter_eq_ok hitems).1] at hlength
  omega

theorem write_within_unless_outgrows (hnot : ¬Outgrows s (.ofIndex item i limit) this v) {a : Value}
    {t : Store} (h : setProperty this (some (.ofIndex item i limit)) v s = .ok a t) :
    s.heap.GrewWithin s.registry.config.growthLimit t.heap := by
  rcases setProperty_item h with hheap | ⟨ref, items, href, hi, ha, hitems, hheap⟩
  · rw [hheap]
    exact Heap.GrewWithin.refl _ _
  · obtain ⟨hlength, hfits⟩ := itemsAfter_eq_ok hitems
    rw [hheap]
    refine Heap.grewWithin_setItems fun l hl hin => Nat.not_lt.1 fun hmore => hnot ?_
    rw [hlength] at hmore
    obtain ⟨hlarge, hcarried⟩ := hfits (by omega)
    exact ⟨ref, i, limit, l, href, hin, rfl, hl, hi, ha, hlarge, by omega, hcarried⟩

end Write

/-! ## At any later time -/

/-- However long after a property of an item was handed out: a write through it that is made lets no
sequence grow by more than the limit in force when the property was handed out. It lets none grow by more
than the limit in force now just if it is not one of the writes that outgrow it. -/
theorem write_through_item (config : Config) (before later : List Operation) {p : Property}
    (hp : HandedOut (reached config before) p) (this v : Value) :
    let s := reached config (before ++ later)
    let taken := (reached config before).registry.config.growthLimit
    let now := s.registry.config.growthLimit
    (∃ i, p.access = .index i taken) ∧
      (∀ a t, setProperty this (some p) v s = .ok a t → s.heap.GrewWithin taken t.heap) ∧
      ((∀ a t, setProperty this (some p) v s = .ok a t → s.heap.GrewWithin now t.heap) ↔
        ¬Outgrows s p this v) := by
  intro s taken now
  obtain ⟨item, i, rfl⟩ := handedOut_limit (reached_valid config before) hp
  refine ⟨⟨i, rfl⟩, fun a t h => write_within_carried h, fun hwithin hout => ?_,
    fun hnot a t h => write_within_unless_outgrows hnot h⟩
  obtain ⟨t, hset, hmore⟩ := write_of_outgrows hout
  exact hmore (hwithin this t hset)

/-- A property of a list that was handed out under a limit of two, used under a limit of three. -/
theorem write_through_item_strings :
    let strings : TypeExpr := .apply .list [.named .string]
    let made : HeapM Unit := modify fun h => (h.allocList ⟨"ArrayList"⟩ []).2
    let before : List Operation := [.ofType strings, .onHeap fun _ => made]
    let s := reached { growthLimit := some 2 } (before ++ [.setConfig { growthLimit := some 3 }])
    let this : Value := .list ⟨⟨"ArrayList"⟩, 0⟩
    ∃ p t, HandedOut (reached { growthLimit := some 2 } before) p ∧
      setProperty this (some p) (.text "x") s = .ok this t ∧
      t.heap.items ⟨⟨"ArrayList"⟩, 0⟩ = [.null, .text "x"] ∧
      s.heap.GrewWithin (some 2) t.heap ∧ s.heap.GrewWithin (some 3) t.heap := by
  intro strings made before s this
  let r := (reached { growthLimit := some 2 } before).registry
  let m := r.models[0]?.getD default
  let item := ((r.contents? m).getD default).parameters.head?.getD default
  have hm : m ∈ r.models := Registry.model_mem (by decide +kernel)
  have hps : m.parameters r = .ok [item] r :=
    Model.parameters_of_single (by decide +kernel) (by decide +kernel)
  have hkind : m.kind = .list := by decide +kernel
  have hp : HandedOut (reached { growthLimit := some 2 } before)
      (.ofIndex item 1 r.config.growthLimit) :=
    .byName hm (.inl hkind) (property?_of_index (.inl hkind) hps (by decide +kernel)
      (show indexOfName? "1" = some 1 by decide +kernel))
  have hset : setProperty this (some (.ofIndex item 1 r.config.growthLimit)) (.text "x") s =
      .ok this _ := eq_ok_of_outcome (by decide +kernel)
  obtain ⟨-, htaken, hnow⟩ := write_through_item { growthLimit := some 2 } before
    [.setConfig { growthLimit := some 3 }] hp this (.text "x")
  refine ⟨_, _, hp, hset, by decide +kernel, htaken _ _ hset, hnow.2 ?_ _ _ hset⟩
  rintro ⟨ref, i, carried, now, -, -, haccess, hlimit, -, -, -, hmore, -⟩
  cases haccess
  have hthree : now = 3 := Option.some.inj hlimit.symm
  omega

/-- A property of a list that was handed out without a limit still appends two items when the limit is
one. -/
theorem retained_limit_outdated :
    let strings : TypeExpr := .apply .list [.named .string]
    let made : HeapM Unit := modify fun h => (h.allocList ⟨"ArrayList"⟩ []).2
    let before : List Operation := [.ofType strings, .onHeap fun _ => made]
    let s := reached {} (before ++ [.setConfig { growthLimit := some 1 }])
    let this : Value := .list ⟨⟨"ArrayList"⟩, 0⟩
    ∃ p t, HandedOut (reached {} before) p ∧ s.registry.config.growthLimit = some 1 ∧
      setProperty this (some p) (.text "x") s = .ok this t ∧
      s.heap.items ⟨⟨"ArrayList"⟩, 0⟩ = [] ∧
      t.heap.items ⟨⟨"ArrayList"⟩, 0⟩ = [.null, .text "x"] ∧
      ¬s.heap.GrewWithin s.registry.config.growthLimit t.heap := by
  intro strings made before s this
  let r := (reached {} before).registry
  let m := r.models[0]?.getD default
  let item := ((r.contents? m).getD default).parameters.head?.getD default
  have hm : m ∈ r.models := Registry.model_mem (by decide +kernel)
  have hps : m.parameters r = .ok [item] r :=
    Model.parameters_of_single (by decide +kernel) (by decide +kernel)
  have hkind : m.kind = .list := by decide +kernel
  have hp : HandedOut (reached {} before) (.ofIndex item 1 r.config.growthLimit) :=
    .byName hm (.inl hkind) (property?_of_index (.inl hkind) hps (by decide +kernel)
      (show indexOfName? "1" = some 1 by decide +kernel))
  have hset : setProperty this (some (.ofIndex item 1 r.config.growthLimit)) (.text "x") s =
      .ok this _ := eq_ok_of_outcome (by decide +kernel)
  refine ⟨_, _, hp, by decide +kernel, hset, by decide +kernel, by decide +kernel, fun hgrew => ?_⟩
  have hlength := hgrew 1 (by decide +kernel) ⟨⟨"ArrayList"⟩, 0⟩
  revert hlength
  decide +kernel

end Introspect
