import Introspect.Models.Walk
import Introspect.Proofs.Models.Items
import Introspect.Proofs.Models.Scan
import Mathlib.Data.List.Basic

/-!
The names of items.

A list or array model has a property under every name that is an index. The index is the value of the
digits, leading zeros or not, and the property is named by the written index; under that name the model
finds the same property, and a walk visits it.

* `indexOfName?_eq_some_iff_zeros`: the names of an index.
* `parameters_of_items`: a list or array model has one parameter.
* `ForItem`: what the property of an item is.
* `item_names`: the properties that names find and walks visit.
-/

namespace Introspect

open Text

/-! ## Names of an index -/

theorem decimal_toList (n : Nat) : (decimal n).toList = decimalChars n := String.toList_ofList

/-- An index has its written form for a name, with any number of zeros in front, and no other names. -/
theorem indexOfName?_eq_some_iff_zeros {name : String} {i : Nat} :
    indexOfName? name = some i ↔
      i < 2 ^ 64 - 1 ∧ ∃ zeros, name.toList = List.replicate zeros '0' ++ (decimal i).toList := by
  have hbound : Config.sizeBound - 1 = 2 ^ 64 - 1 := by decide
  unfold indexOfName?
  rw [Option.filter_eq_some_iff, natOfChars?_eq_some_iff_zeros, hbound, decide_eq_true_eq,
    decimal_toList, and_comm]

theorem indexOfName?_decimal {i : Nat} (hi : i < 2 ^ 64 - 1) : indexOfName? (decimal i) = some i :=
  indexOfName?_eq_some_iff_zeros.2 ⟨hi, 0, rfl⟩

theorem indexOfName?_eq_some_iff {name : String} {i : Nat} :
    indexOfName? name = some i ↔
      name ≠ "" ∧ (∀ c ∈ name.toList, '0' ≤ c ∧ c ≤ '9') ∧
        Nat.ofDigits 10 (name.toList.reverse.map fun c => c.toNat - '0'.toNat) = i ∧
        i < 2 ^ 64 - 1 := by
  have hempty : name.toList ≠ [] ↔ name ≠ "" := not_congr String.toList_eq_nil_iff
  rw [indexOfName?_eq]
  unfold writtenIndex?
  simp only [List.all_eq_true, decide_eq_true_eq, hempty]
  constructor
  · intro h
    split at h
    · next hname =>
      cases h
      exact ⟨hname.1, hname.2.1, rfl, hname.2.2⟩
    · cases h
  · rintro ⟨hne, hdigits, rfl, hlt⟩
    rw [if_pos ⟨hne, hdigits, hlt⟩]

/-- Only zero is written with a zero in front. -/
theorem eq_zero_of_decimal_head? {i : Nat} (h : (decimal i).toList.head? = some '0') : i = 0 := by
  rw [decimal_toList] at h
  exact eq_zero_of_head? h

/-! ## The item model -/

section Parameters

variable {m : Model}

theorem Model.build_parameters_of_items (hkind : m.kind = .list ∨ m.kind = .array) {c : Contents}
    {r r' : Registry} (h : m.build r = .ok c r') : ∃ item, c.parameters = [item] := by
  obtain ⟨r₁, hassemble, -⟩ := Model.build_eq_ok h
  unfold Model.assemble at hassemble
  rcases hkind with hkind | hkind
  all_goals
    simp only [hkind] at hassemble
    obtain ⟨_, _, -, hmodel⟩ := bind_eq_ok_iff.1 hassemble
    obtain ⟨item, _, -, hcontents⟩ := bind_eq_ok_iff.1 hmodel
    cases hcontents
    exact ⟨item, rfl⟩

/-- A list or array model that can be initialized has one parameter, the model of its items. -/
theorem parameters_of_items {config : Config} {ops : List Operation}
    (hm : m ∈ (reached config ops).registry.models) (hkind : m.kind = .list ∨ m.kind = .array)
    {ps : List Model} {r : Registry}
    (h : m.parameters (reached config ops).registry = .ok ps r) : ∃ item, ps = [item] := by
  obtain ⟨c, hc, rfl⟩ := Model.parameters_eq_ok h
  rcases Model.getContents_cases m (reached config ops).registry with
    ⟨d, hd, h'⟩ | ⟨-, d, r₁, hbuild, h'⟩ | ⟨-, e, r₁, -, h'⟩
  · rw [h'] at hc
    cases hc
    obtain ⟨s, s', -, -, hbuild, -⟩ := reached_built hm hd
    exact Model.build_parameters_of_items hkind hbuild
  · rw [h'] at hc
    cases hc
    exact Model.build_parameters_of_items hkind hbuild
  · rw [h'] at hc
    cases hc

end Parameters

/-! ## The property of an item -/

/-- The property of the `i`-th item: it is named by the written index, reads the item, null where there is
none, and writes it, padding with nulls up to it as far as the limit lets it. -/
structure ForItem (i : Nat) (limit : Option Nat) (p : Property) : Prop where
  name : p.name = decimal i
  reads : ∀ {this : Value} {ref : Ref} (s : Store), this.asSequence = .ok ref →
    p.read this s = .ok ((s.heap.items ref)[i]?.getD .null) s
  writes : ∀ {this : Value} {ref : Ref} (v : Value) (s : Store), this.asSequence = .ok ref →
    ∃ lines, p.write this v s =
      match itemsAfter limit (s.heap.items ref) i v with
      | .ok items => .ok this ⟨s.heap.setItems ref items, s.registry.journaled lines⟩
      | .error e => .error e ⟨s.heap, s.registry.journaled lines⟩

theorem readItem_apply {this : Value} {ref : Ref} (href : this.asSequence = .ok ref) (i : Nat)
    (h : Heap) : readItem i this h = .ok ((h.items ref)[i]?.getD .null) h := by
  unfold readItem
  rw [href, bind_of_ok (ofExcept_ok ref h), bind_of_ok (get_apply h)]
  rfl

theorem forItem_ofIndex (item : Model) (i : Nat) (limit : Option Nat) :
    ForItem i limit (.ofIndex item i limit) where
  name := rfl
  reads s href := by
    show Store.onHeap (readItem i _) s = _
    unfold Store.onHeap
    rw [readItem_apply href]
  writes v s href := writeItem_apply href i limit v s

theorem itemVisits_eq_mapIdx (item : Model) (limit : Option Nat) (start : Nat)
    (items : List Value) :
    itemVisits item limit start items =
      items.mapIdx fun i v => ⟨.ofIndex item (start + i) limit, v⟩ := by
  induction items generalizing start with
  | nil => rfl
  | cons v vs ih =>
    have hnext : (fun i v => (⟨.ofIndex item (start + 1 + i) limit, v⟩ : Visit)) =
        fun i v => ⟨.ofIndex item (start + (i + 1)) limit, v⟩ := by
      funext i v
      rw [Nat.add_right_comm, Nat.add_assoc]
    rw [List.mapIdx_cons, itemVisits, ih, hnext]
    rfl

/-! ## Found and visited properties -/

section Found

variable {m item : Model} {others : List Model} {r reg : Registry}

theorem property?_eq_some {name : String} {p : Property} (hv : reg.Valid) (hm : m ∈ reg.models)
    (hkind : m.kind = .list ∨ m.kind = .array) (h : m.property? name reg = .ok (some p) r) :
    ∃ item others i, m.parameters reg = .ok (item :: others) r ∧ r.live = true ∧
      indexOfName? name = some i ∧ p = .ofIndex item i reg.config.growthLimit := by
  rw [property?_of_items hkind] at h
  unfold Model.itemProperty? at h
  cases hname : indexOfName? name with
  | none => simp only [hname] at h; cases h
  | some i =>
    simp only [hname] at h
    obtain ⟨ps, r₁, hps, h⟩ := bind_eq_ok_iff.1 h
    cases ps with
    | nil => simp only [List.head?_nil] at h; cases h
    | cons item others =>
      simp only [List.head?_cons] at h
      obtain ⟨_, r₂, hrequire, h⟩ := bind_eq_ok_iff.1 h
      rw [Registry.requireLive_apply] at hrequire
      split at hrequire
      · next hlive =>
        cases hrequire
        rw [bind_of_ok (get_apply _)] at h
        cases h
        exact ⟨item, others, i, hps, hlive, rfl, by rw [(Model.parameters_settings hv hm hps).1]⟩
      · cases hrequire

theorem walkItems_of_sequence {this : Value} {ref : Ref} {s : Store}
    (hps : m.parameters s.registry = .ok (item :: others) r) (hlive : r.live = true)
    (href : this.asSequence = .ok ref) :
    m.walkItems this s =
      .ok (itemVisits item r.config.growthLimit 0 (s.heap.items ref)) { s with registry := r } := by
  unfold Model.walkItems
  rw [bind_of_ok (Store.onRegistry_of_ok hps)]
  simp only [List.head?_cons]
  rw [bind_of_ok (Store.requireLive_of_live hlive), bind_of_ok (get_apply _), href,
    bind_of_ok (ofExcept_ok ref _)]
  rfl

theorem walk_of_sequence (hkind : m.kind = .list ∨ m.kind = .array) {this : Value} {ref : Ref}
    {s t : Store} {visits : List Visit} (href : this.asSequence = .ok ref)
    (h : m.walkItems this s = .ok visits t) : m.walk this s = .ok visits t := by
  have hthis : this.isNull = false := by
    cases this with
    | null => cases href
    | _ => rfl
  have hvisits : m.visits this s = .ok (visits.map pure) t := by
    unfold Model.visits
    rw [hthis, if_neg Bool.false_ne_true]
    rcases hkind with hkind | hkind
    all_goals
      simp only [hkind]
      rw [bind_of_ok h]
      rfl
  unfold Model.walk
  rw [bind_of_ok hvisits, Model.mapM_visits]

/-- A name finds the property of the index that it writes, and none if it writes none. The property is found
again under its own name. A walk visits the properties that the written indices find, with the items. -/
theorem item_names (config : Config) (ops : List Operation)
    (hm : m ∈ (reached config ops).registry.models) (hkind : m.kind = .list ∨ m.kind = .array) :
    let s := reached config ops
    let limit := s.registry.config.growthLimit
    (∀ name i, indexOfName? name = some i ↔
      name ≠ "" ∧ (∀ c ∈ name.toList, '0' ≤ c ∧ c ≤ '9') ∧
        Nat.ofDigits 10 (name.toList.reverse.map fun c => c.toNat - '0'.toNat) = i ∧
        i < 2 ^ 64 - 1) ∧
    (∀ i < 2 ^ 64 - 1, indexOfName? (decimal i) = some i) ∧
    (∀ name p r, m.property? name s.registry = .ok (some p) r →
      ∃ i zeros, indexOfName? name = some i ∧ ForItem i limit p ∧
        name.toList = List.replicate zeros '0' ++ p.name.toList ∧
        (p.name.toList.head? = some '0' → i = 0) ∧
        m.property? p.name s.registry = .ok (some p) r ∧ m.property? p.name r = .ok (some p) r) ∧
    ∀ ps r, m.parameters s.registry = .ok ps r → r.live = true →
      (∀ name, indexOfName? name = none → m.property? name s.registry = .ok none s.registry) ∧
      (∀ name i, indexOfName? name = some i →
        ∃ p, ForItem i limit p ∧ m.property? name s.registry = .ok (some p) r) ∧
      ∀ this ref, this.asSequence = .ok ref →
        ∃ visits, m.walk this s = .ok visits { s with registry := r } ∧
          visits.length = (s.heap.items ref).length ∧
          ∀ i v, (s.heap.items ref)[i]? = some v →
            ∃ p, visits[i]? = some ⟨p, v⟩ ∧ ForItem i limit p ∧
              (i < 2 ^ 64 - 1 → m.property? (decimal i) r = .ok (some p) r) := by
  intro s limit
  have hv : s.registry.Valid := reached_valid config ops
  -- what was found once is found again, also in the registry in which the model is initialized
  have hagain : ∀ {item others r name i}, m.parameters s.registry = .ok (item :: others) r →
      r.live = true → indexOfName? name = some i →
      m.property? name s.registry = .ok (some (.ofIndex item i limit)) r ∧
        m.property? name r = .ok (some (.ofIndex item i limit)) r := by
    intro item others r name i hps hlive hname
    have hconfig : r.config.growthLimit = limit := by
      rw [(Model.parameters_settings hv hm hps).1]
    have hgiven : m.parameters r = .ok (item :: others) r :=
      (Model.gives_of_parameters hps).parameters r.journal
    rw [← hconfig]
    exact ⟨property?_of_index hkind hps hlive hname, property?_of_index hkind hgiven hlive hname⟩
  refine ⟨fun _ _ => indexOfName?_eq_some_iff, fun i hi => indexOfName?_decimal hi,
    fun name p r h => ?_, fun ps r hps hlive => ?_⟩
  · obtain ⟨item, others, i, hps, hlive, hname, rfl⟩ := property?_eq_some hv hm hkind h
    obtain ⟨hi, zeros, hzeros⟩ := indexOfName?_eq_some_iff_zeros.1 hname
    exact ⟨i, zeros, hname, forItem_ofIndex item i limit, hzeros, eq_zero_of_decimal_head?,
      hagain hps hlive (indexOfName?_decimal hi)⟩
  · obtain ⟨item, rfl⟩ := parameters_of_items hm hkind hps
    refine ⟨fun name hname => property?_of_not_index hkind hname, fun name i hname =>
      ⟨_, forItem_ofIndex item i limit, (hagain hps hlive hname).1⟩, fun this ref href => ?_⟩
    have hwalk := walk_of_sequence hkind href (walkItems_of_sequence hps hlive href)
    rw [(Model.parameters_settings hv hm hps).1, itemVisits_eq_mapIdx] at hwalk
    refine ⟨_, hwalk, List.length_mapIdx, fun i v hi => ⟨.ofIndex item i limit, ?_,
      forItem_ofIndex item i limit, fun hlt => (hagain hps hlive (indexOfName?_decimal hlt)).2⟩⟩
    rw [List.getElem?_mapIdx, hi, Nat.zero_add]
    rfl

end Found

/-- A list of two integers: the name `007` finds the property named `7`, and a walk visits `0` and `1`. -/
theorem item_names_ints :
    let ints : TypeExpr := .apply .list [.named PrimitiveKind.int32.primitiveId]
    let made : HeapM Unit := modify fun h => (h.allocList ⟨"ArrayList"⟩ [.int32 5, .int32 6]).2
    let s := reached {} [.ofType ints, .onHeap fun _ => made]
    let m := (s.registry.models[0]?).getD default
    let this : Value := .list ⟨⟨"ArrayList"⟩, 0⟩
    (∃ p, m.property? "007" s.registry = .ok (some p) s.registry ∧ ForItem 7 none p ∧
        m.property? "7" s.registry = .ok (some p) s.registry) ∧
      ∃ p q, m.walk this s = .ok [⟨p, .int32 5⟩, ⟨q, .int32 6⟩] s ∧ ForItem 0 none p ∧
        ForItem 1 none q := by
  intro ints made s m this
  let item := ((s.registry.contents? m).getD default).parameters.head?.getD default
  have hm : m ∈ s.registry.models := Registry.model_mem (by decide +kernel)
  have hkind : m.kind = .list := by decide +kernel
  have hps : m.parameters s.registry = .ok [item] s.registry :=
    Model.parameters_of_single (by decide +kernel) (by decide +kernel)
  have hlive : s.registry.live = true := by decide +kernel
  have hlimit : s.registry.config.growthLimit = none := by decide +kernel
  have hitems : s.heap.items ⟨⟨"ArrayList"⟩, 0⟩ = [.int32 5, .int32 6] := by decide +kernel
  obtain ⟨-, -, hfound, hinit⟩ :=
    item_names {} [.ofType ints, .onHeap fun _ => made] hm (.inl hkind)
  obtain ⟨-, hfinds, hwalks⟩ := hinit _ _ hps hlive
  constructor
  · obtain ⟨p, hp, hfind⟩ := hfinds "007" 7 (by decide +kernel)
    obtain ⟨i, zeros, -, -, -, -, hagain, -⟩ := hfound "007" p _ hfind
    rw [hp.name, show decimal 7 = "7" by decide +kernel] at hagain
    exact ⟨p, hfind, hlimit ▸ hp, hagain⟩
  · obtain ⟨visits, hwalk, hlength, hvisit⟩ := hwalks this _ rfl
    rw [hitems] at hlength hvisit
    obtain ⟨a, b, rfl⟩ := List.length_eq_two.1 hlength
    obtain ⟨p, hfirst, hp, -⟩ := hvisit 0 (.int32 5) rfl
    obtain ⟨q, hsecond, hq, -⟩ := hvisit 1 (.int32 6) rfl
    cases hfirst
    cases hsecond
    exact ⟨p, q, hwalk, hlimit ▸ hp, hlimit ▸ hq⟩

end Introspect
