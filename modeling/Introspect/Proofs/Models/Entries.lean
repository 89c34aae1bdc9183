import Introspect.Models.Walk
import Introspect.Proofs.Dict
import Introspect.Proofs.Models.Requests
import Introspect.Proofs.Models.Runs
import Introspect.Proofs.Values.Codec
import Introspect.Proofs.Values.Heap

/-!
Map models are dictionaries over the keys that names are read as.

Several names may be read as one key, and the property of a key has the one name that is written for it.
So what a name finds is what was last written under any name of its key, and a walk, which goes from keys
to names, meets every key once.

* `lastWritten`: what a key finds after writes.
* `set_enters`, `get_finds`, `walk_visits`: the requests, by the entries of the map.
* `entriesVisited`: the walk, by the writes.
* `entries_of_writes`: any number of writes to an empty map.
-/

namespace Introspect

/-! ## Entries after writes -/

/-- What was written last under a name of the key. -/
def lastWritten (codec : Codec) (writes : List (String × Value)) (k : Value) : Option Value :=
  (writes.filter fun w => codec.decode w.1 = .ok k).getLast?.map (·.2)

/-- What a name finds; null if it is no name of a key, or nothing was written under that key. -/
def found (codec : Codec) (writes : List (String × Value)) (name : String) : Value :=
  match codec.decode name with
  | .ok k => (lastWritten codec writes k).getD .null
  | .error _ => .null

/-- The entries after a write; under a name of no key nothing is written. -/
def enter (codec : Codec) (d : Dict Value Value) (w : String × Value) : Dict Value Value :=
  match codec.decode w.1 with
  | .ok k => d.insert k w.2
  | .error _ => d

section Entered

variable {codec : Codec}

theorem lastWritten_cons (w : String × Value) (ws : List (String × Value)) (k : Value) :
    lastWritten codec (w :: ws) k =
      (lastWritten codec ws k).or (if codec.decode w.1 = .ok k then some w.2 else none) := by
  unfold lastWritten
  by_cases h : codec.decode w.1 = .ok k
  · rw [List.filter_cons_of_pos (by simpa using h), List.getLast?_cons, if_pos h]
    cases (ws.filter fun w => codec.decode w.1 = .ok k).getLast? <;> rfl
  · rw [List.filter_cons_of_neg (by simpa using h), if_neg h, Option.or_none]

theorem exists_lastWritten {writes : List (String × Value)} {k : Value} :
    (∃ v, lastWritten codec writes k = some v) ↔ ∃ w ∈ writes, codec.decode w.1 = .ok k := by
  induction writes with
  | nil => simp [lastWritten]
  | cons w ws ih =>
    simp only [lastWritten_cons, List.exists_mem_cons_iff, ← ih]
    by_cases h : codec.decode w.1 = .ok k
    · cases lastWritten codec ws k <;> simp [h]
    · simp [h]

theorem find?_enter (d : Dict Value Value) (w : String × Value) (k : Value) :
    (enter codec d w).find? k = if codec.decode w.1 = .ok k then some w.2 else d.find? k := by
  unfold enter
  cases hk : codec.decode w.1 with
  | error e => simp
  | ok j =>
    simp only [Except.ok.injEq]
    by_cases h : j = k
    · rw [if_pos h, h, Dict.find?_insert_self]
    · rw [if_neg h, Dict.find?_insert_of_ne _ _ (Ne.symm h)]

/-- What a key finds is what was written last under one of its names. -/
theorem find?_entered (writes : List (String × Value)) (d : Dict Value Value) (k : Value) :
    (writes.foldl (enter codec) d).find? k = (lastWritten codec writes k).or (d.find? k) := by
  induction writes generalizing d with
  | nil => rfl
  | cons w ws ih =>
    rw [List.foldl_cons, ih, find?_enter, lastWritten_cons, Option.or_assoc]
    congr 1
    by_cases h : codec.decode w.1 = .ok k
    · rw [if_pos h, if_pos h, Option.some_or]
    · rw [if_neg h, if_neg h, Option.none_or]

theorem nodup_entered (writes : List (String × Value)) {d : Dict Value Value}
    (hd : d.keys.Nodup) : (writes.foldl (enter codec) d).keys.Nodup := by
  induction writes generalizing d with
  | nil => exact hd
  | cons w ws ih =>
    refine ih ?_
    unfold enter
    split
    · exact Dict.nodup_keys_insert hd _ _
    · exact hd

end Entered

/-! ## Requests under a name -/

section Request

variable {m key value : Model} {codec : Codec} {r reg : Registry}

theorem property?_of_key (hkind : m.kind = .map) (hps : m.parameters reg = .ok [key, value] r)
    (hcodec : key.codec = some codec) {name : String} {k : Value}
    (hname : codec.decode name = .ok k) :
    m.property? name reg = .ok (some (.ofKey value (keyName codec name k) k)) r := by
  unfold Model.property? Model.entryProperty?
  simp only [hkind]
  rw [bind_of_ok hps]
  simp only [hcodec, hname]
  rfl

theorem property?_of_no_key (hkind : m.kind = .map) (hps : m.parameters reg = .ok [key, value] r)
    (hcodec : key.codec = some codec) {name : String} {e : Error}
    (hname : codec.decode name = .error e) :
    ∃ lines, m.property? name reg = .ok none (r.journaled lines) := by
  unfold Model.property? Model.entryProperty?
  simp only [hkind]
  rw [bind_of_ok hps]
  simp only [hcodec, hname]
  exact ⟨_, rfl⟩

theorem isNull_of_asMap {this : Value} {ref : Ref} (href : this.asMap = .ok ref) :
    this.isNull = false := by
  cases this with
  | null => cases href
  | _ => rfl

theorem set_without_key (hkind : m.kind = .map) (hcodec : key.codec = some codec) {s : Store}
    (hps : m.Gives [key, value] r s.registry) {name : String} {e : Error}
    (hname : codec.decode name = .error e) (this v : Value) :
    ∃ reg, m.Gives [key, value] r reg ∧ m.set this name v s = .ok this ⟨s.heap, reg⟩ := by
  have hagain := hps.again
  obtain ⟨lines, hparameters⟩ := hps
  obtain ⟨more, hproperty⟩ := property?_of_no_key hkind hparameters hcodec hname
  refine ⟨r.journaled more, hagain more, ?_⟩
  rw [Model.set_of_property hproperty]
  rfl

/-- A write that the value model takes enters the value under the key that the name is read as. -/
theorem set_enters (hkind : m.kind = .map) (hcodec : key.codec = some codec) {s : Store}
    (hps : m.Gives [key, value] r s.registry) {this : Value} {ref : Ref}
    (href : this.asMap = .ok ref) {name : String} {v : Value} (haccepts : r.accepts value v = true)
    (hnull : v = .null → value.isNullable = true) :
    ∃ reg, m.Gives [key, value] r reg ∧
      m.set this name v s =
        .ok this ⟨s.heap.setEntries ref (enter codec (s.heap.entries ref) (name, v)), reg⟩ := by
  unfold enter
  cases hname : codec.decode name with
  | error e =>
    obtain ⟨reg, hreg, hset⟩ := set_without_key hkind hcodec hps hname this v
    refine ⟨reg, hreg, ?_⟩
    simp only [Heap.setEntries_entries]
    exact hset
  | ok k =>
    have hagain := hps.again
    obtain ⟨lines, hparameters⟩ := hps
    have hproperty := property?_of_key hkind hparameters hcodec hname
    have hi : ignoresWrite (.ofKey value (keyName codec name k) k) this v = false := by
      unfold ignoresWrite
      rw [isNull_of_asMap href, Bool.false_or, Bool.and_eq_false_imp]
      intro hv
      cases v with
      | null => simp [Property.ofKey, hnull rfl]
      | _ => cases hv
    refine ⟨r.journaled lines, hagain lines, ?_⟩
    rw [Model.set_of_property hproperty]
    refine (setProperty_of_accepted hi haccepts).trans ?_
    simp only [Property.write, Property.ofKey, Store.onHeap, writeEntry, href]
    rfl

/-- A read finds what the map has under the key that the name is read as. -/
theorem get_finds (hkind : m.kind = .map) (hcodec : key.codec = some codec) {s : Store}
    (hps : m.Gives [key, value] r s.registry) {this : Value} {ref : Ref}
    (href : this.asMap = .ok ref) (name : String) :
    ∃ reg, m.get this name s =
      .ok (match codec.decode name with
        | .ok k => ((s.heap.entries ref).find? k).getD .null
        | .error _ => .null) ⟨s.heap, reg⟩ := by
  obtain ⟨lines, hparameters⟩ := hps
  cases hname : codec.decode name with
  | error e =>
    obtain ⟨more, hproperty⟩ := property?_of_no_key hkind hparameters hcodec hname
    refine ⟨r.journaled more, ?_⟩
    rw [Model.get_of_property hproperty]
    rfl
  | ok k =>
    refine ⟨r.journaled lines, ?_⟩
    rw [Model.get_of_property (property?_of_key hkind hparameters hcodec hname)]
    simp only [getProperty, isNull_of_asMap href, Bool.false_eq_true, if_false]
    simp only [Property.read, Property.ofKey, Store.onHeap, readEntry, href]
    rfl

end Request

/-! ## The walk -/

section Walk

variable {m key value : Model} {codec : Codec} {r : Registry}

/-- The key of the entry that was visited. -/
def Visit.key? (visit : Visit) : Option Value :=
  match visit.property.access with
  | .entry k => some k
  | _ => none

/-- The visit of an entry whose key has a text. -/
def visitOf (codec : Codec) (value : Model) (entry : Value × Value) : Visit :=
  ⟨.ofKey value ((codec.encode entry.1).toOption.getD "") entry.1, entry.2⟩

theorem entryVisit_of_encode {entry : Value × Value} {text : String}
    (h : codec.encode entry.1 = .ok text) :
    entryVisit codec value entry = .ok (visitOf codec value entry) := by
  unfold entryVisit visitOf
  rw [h]
  rfl

theorem mapM_entryVisit {es : List (Value × Value)}
    (h : ∀ e ∈ es, ∃ text, codec.encode e.1 = .ok text) :
    es.mapM (entryVisit codec value) = .ok (es.map (visitOf codec value)) := by
  induction es with
  | nil => rfl
  | cons e es ih =>
    obtain ⟨text, htext⟩ := h e (List.mem_cons_self ..)
    rw [List.mapM_cons, entryVisit_of_encode htext, ih fun e' he => h e' (List.mem_cons_of_mem _ he)]
    rfl

/-- A walk of a map all of whose keys have texts visits its entries, sorted by those texts. -/
theorem walk_visits (hkind : m.kind = .map) (hcodec : key.codec = some codec) {s : Store}
    (hps : m.Gives [key, value] r s.registry) {this : Value} {ref : Ref}
    (href : this.asMap = .ok ref)
    (htexts : ∀ e ∈ (s.heap.entries ref).entries, ∃ text, codec.encode e.1 = .ok text) :
    ∃ reg, m.walk this s =
      .ok (sortByName ((s.heap.entries ref).entries.map (visitOf codec value))) ⟨s.heap, reg⟩ := by
  obtain ⟨lines, hparameters⟩ := hps
  have hentries : m.walkEntries this s =
      .ok (sortByName ((s.heap.entries ref).entries.map (visitOf codec value)))
        ⟨s.heap, r.journaled lines⟩ := by
    unfold Model.walkEntries
    rw [bind_of_ok (Store.onRegistry_of_ok hparameters)]
    simp only [hcodec]
    rw [href, bind_of_ok (ofExcept_ok ref _), bind_of_ok (get_apply _)]
    simp only
    rw [mapM_entryVisit htexts, bind_of_ok (ofExcept_ok _ _)]
    rfl
  have hvisits : m.visits this s =
      .ok ((sortByName ((s.heap.entries ref).entries.map (visitOf codec value))).map pure)
        ⟨s.heap, r.journaled lines⟩ := by
    unfold Model.visits
    rw [isNull_of_asMap href]
    simp only [hkind, Bool.false_eq_true, if_false]
    rw [bind_of_ok hentries]
    rfl
  refine ⟨r.journaled lines, ?_⟩
  unfold Model.walk
  rw [bind_of_ok hvisits]
  exact Model.mapM_visits _ _

/-- The visits of a map to which these writes were made: one of every key that a name of a write is read
as, in the order of their texts, each with what was written last under its key. -/
structure EntriesVisited (codec : Codec) (writes : List (String × Value)) (visits : List Visit) :
    Prop where
  once : (visits.map Visit.key?).Nodup
  keys : ∀ k, some k ∈ visits.map Visit.key? ↔ ∃ w ∈ writes, codec.decode w.1 = .ok k
  ordered : visits.Pairwise fun a b => a.property.name < b.property.name
  entry : ∀ visit ∈ visits, ∃ k, visit.key? = some k ∧
    codec.encode k = .ok visit.property.name ∧ lastWritten codec writes k = some visit.value

theorem sortByName_perm (visits : List Visit) : (sortByName visits).Perm visits :=
  List.mergeSort_perm _ _

theorem sortByName_ordered (visits : List Visit)
    (h : (visits.map fun visit => visit.property.name).Nodup) :
    (sortByName visits).Pairwise fun a b => a.property.name < b.property.name := by
  have hle : (sortByName visits).Pairwise fun a b => a.property.name ≤ b.property.name := by
    have htrans : ∀ a b c : Visit, decide (a.property.name ≤ b.property.name) = true →
        decide (b.property.name ≤ c.property.name) = true →
          decide (a.property.name ≤ c.property.name) = true := fun a b c hab hbc =>
      decide_eq_true (String.le_trans (of_decide_eq_true hab) (of_decide_eq_true hbc))
    have htotal : ∀ a b : Visit, (decide (a.property.name ≤ b.property.name) ||
        decide (b.property.name ≤ a.property.name)) = true := fun a b => by
      simpa using String.le_total a.property.name b.property.name
    have hsorted := List.pairwise_mergeSort htrans htotal visits
    exact hsorted.imp of_decide_eq_true
  have hne : (sortByName visits).Pairwise fun a b => a.property.name ≠ b.property.name := by
    have hnames := ((sortByName_perm visits).map fun visit => visit.property.name).nodup_iff.2 h
    exact List.pairwise_map.1 hnames
  refine (hle.and hne).imp fun hab => Decidable.byContradiction fun hlt => ?_
  exact hab.2 (String.le_antisymm hab.1 (String.not_lt.1 hlt))

theorem entriesVisited {writes : List (String × Value)} (hexact : codec.IsExact)
    {d : Dict Value Value} (hd : d.keys.Nodup)
    (hfind : ∀ k, d.find? k = lastWritten codec writes k) (value : Model) :
    EntriesVisited codec writes (sortByName (d.entries.map (visitOf codec value))) := by
  have hmem : ∀ k, k ∈ d.keys ↔ ∃ w ∈ writes, codec.decode w.1 = .ok k := by
    intro k
    rw [Dict.mem_keys_iff, ← exists_lastWritten, hfind]
  have htext : ∀ k ∈ d.keys,
      codec.encode k = .ok ((codec.encode k).toOption.getD "") := by
    intro k hk
    obtain ⟨w, -, hw⟩ := (hmem k).1 hk
    obtain ⟨text, htext, -⟩ := Codec.encode_of_decode hexact hw
    rw [htext]
    rfl
  have hperm := sortByName_perm (d.entries.map (visitOf codec value))
  have hkeys : ((sortByName (d.entries.map (visitOf codec value))).map Visit.key?).Perm
      (d.keys.map some) := by
    refine (hperm.map Visit.key?).trans (List.Perm.of_eq ?_)
    rw [Dict.keys, List.map_map, List.map_map]
    rfl
  refine ⟨?_, fun k => ?_, sortByName_ordered _ ?_, fun visit hvisit => ?_⟩
  · exact hkeys.nodup_iff.2 (hd.map (Option.some_injective _))
  · rw [hkeys.mem_iff, List.mem_map_of_injective (Option.some_injective _), hmem]
  · -- keys with the same text are the same
    have hnames : ((d.entries.map (visitOf codec value)).map fun visit => visit.property.name) =
        d.keys.map fun k => (codec.encode k).toOption.getD "" := by
      rw [Dict.keys, List.map_map, List.map_map]
      rfl
    rw [hnames]
    refine List.Nodup.map_on (fun k hk j hj hkj => ?_) hd
    exact Codec.encode_injective hexact (htext k hk) (hkj ▸ htext j hj)
  · obtain ⟨e, he, rfl⟩ := List.mem_map.1 (hperm.mem_iff.1 hvisit)
    refine ⟨e.1, rfl, htext e.1 (List.mem_map_of_mem he), ?_⟩
    rw [← hfind]
    exact (Dict.mem_entries_iff hd).1 he

/-- The name of a visited entry finds the visited property, which reads the visited value. -/
theorem visited_property (hkind : m.kind = .map) (hcodec : key.codec = some codec) {s : Store}
    (hps : m.Gives [key, value] r s.registry) {this : Value} {ref : Ref}
    (href : this.asMap = .ok ref) (hexact : codec.IsExact)
    (hnodup : (s.heap.entries ref).keys.Nodup)
    (hread : ∀ k ∈ (s.heap.entries ref).keys, ∃ name, codec.decode name = .ok k) {visit : Visit}
    (hvisit : visit ∈ sortByName ((s.heap.entries ref).entries.map (visitOf codec value))) :
    (∃ reg, m.property? visit.property.name s.registry = .ok (some visit.property) reg) ∧
      visit.property.read this s = .ok visit.value s := by
  obtain ⟨e, he, rfl⟩ := List.mem_map.1 ((sortByName_perm _).mem_iff.1 hvisit)
  obtain ⟨lines, hparameters⟩ := hps
  obtain ⟨name, hname⟩ := hread e.1 (List.mem_map_of_mem he)
  obtain ⟨text, htext, hback⟩ := Codec.encode_of_decode hexact hname
  have hvisit : visitOf codec value e = ⟨.ofKey value text e.1, e.2⟩ := by
    unfold visitOf
    rw [htext]
    rfl
  have hkey : keyName codec text e.1 = text := by
    unfold keyName
    rw [htext]
  have hproperty := property?_of_key hkind hparameters hcodec hback
  rw [hkey] at hproperty
  rw [hvisit]
  refine ⟨⟨_, hproperty⟩, ?_⟩
  have hfind : s.heap.valueAt? ref e.1 = some e.2 := (Dict.mem_entries_iff hnodup).1 he
  simp only [Property.read, Property.ofKey, Store.onHeap, readEntry, href]
  rw [bind_of_ok (ofExcept_ok ref _), bind_of_ok (get_apply _), hfind]
  rfl

end Walk

/-! ## Any number of writes -/

/-- Writes of values that the value model takes are all made, and enter those values one after the other. -/
theorem setEach_enters {m key value : Model} {codec : Codec} {s : Store} {r : Registry}
    {this : Value} {ref : Ref} (hkind : m.kind = .map) (hcodec : key.codec = some codec)
    (hps : m.Gives [key, value] r s.registry) (href : this.asMap = .ok ref)
    (hin : ref.index < s.heap.maps.size) {writes : List (String × Value)}
    (hwrites : ∀ w ∈ writes,
      r.accepts value w.2 = true ∧ (w.2 = .null → value.isNullable = true)) :
    (m.setEach this writes s).1 = writes.map (fun _ => .ok this) ∧
      m.Gives [key, value] r (m.setEach this writes s).2.registry ∧
      (m.setEach this writes s).2.heap =
        s.heap.setEntries ref (writes.foldl (enter codec) (s.heap.entries ref)) := by
  -- the entries stand at `ref`; the rest of the heap and the model's parameters are as at the start
  have hstep : ∀ w ∈ writes, ∀ (d : Dict Value Value) (t : Store),
      m.Gives [key, value] r t.registry ∧ t.heap = s.heap.setEntries ref d →
        outcome (m.set this w.1 w.2) t = .ok this ∧
          m.Gives [key, value] r (after (m.set this w.1 w.2) t).registry ∧
            (after (m.set this w.1 w.2) t).heap = s.heap.setEntries ref (enter codec d w) := by
    rintro w hw d t ⟨hgives, hheap⟩
    obtain ⟨haccepts, hnull⟩ := hwrites w hw
    obtain ⟨reg, hreg, hset⟩ := set_enters hkind hcodec hgives href haccepts hnull
    rw [hheap, s.heap.entries_setEntries hin, Heap.setEntries_setEntries] at hset
    rw [outcome_of_ok hset, after_of_ok hset]
    exact ⟨rfl, hreg, rfl⟩
  obtain ⟨houtcomes, hgives, hheap⟩ := Model.setEach_simulates
    (f := fun d w => .ok (enter codec d w))
    (R := fun d t => m.Gives [key, value] r t.registry ∧ t.heap = s.heap.setEntries ref d) this hstep
    ⟨hps, (s.heap.setEntries_entries ref).symm⟩
  obtain ⟨hok, hleft⟩ := writeEach_ok (enter codec) this writes (s.heap.entries ref)
  rw [hleft] at hheap
  exact ⟨houtcomes.trans hok, hgives, hheap⟩

/-- Writes to an empty map, under whatever names, of values that the value model takes: every write is
made; a name then finds what was last written under a name of the same key; a write under a name of no key
leaves the map as it is; and a walk visits every key once, in the order of the texts, each with a property
that its own name finds and that reads the visited value. -/
theorem entries_of_writes {m key value : Model} {codec : Codec} {s : Store} {r : Registry}
    {this : Value} {ref : Ref} (hkind : m.kind = .map)
    (hps : m.parameters s.registry = .ok [key, value] r) (hcodec : key.codec = some codec)
    (hexact : codec.IsExact) (href : this.asMap = .ok ref) (hin : ref.index < s.heap.maps.size)
    (hempty : (s.heap.entries ref).entries = []) {writes : List (String × Value)}
    (hwrites : ∀ w ∈ writes,
      r.accepts value w.2 = true ∧ (w.2 = .null → value.isNullable = true)) :
    (m.setEach this writes s).1 = writes.map (fun _ => .ok this) ∧
      let t := (m.setEach this writes s).2
      (∀ name, ∃ reg, m.get this name t = .ok (found codec writes name) ⟨t.heap, reg⟩) ∧
      (∀ name v e, codec.decode name = .error e →
        ∃ reg, m.set this name v t = .ok this ⟨t.heap, reg⟩) ∧
      ∃ visits reg, m.walk this t = .ok visits ⟨t.heap, reg⟩ ∧
        EntriesVisited codec writes visits ∧
        ∀ visit ∈ visits,
          (∃ reg, m.property? visit.property.name t.registry = .ok (some visit.property) reg) ∧
          visit.property.read this t = .ok visit.value t := by
  have hstart : s.heap.entries ref = .empty := congrArg Dict.mk hempty
  obtain ⟨houtcomes, hgives, hheap⟩ :=
    setEach_enters hkind hcodec (Model.gives_of_parameters hps) href hin hwrites
  refine ⟨houtcomes, ?_⟩
  intro t
  have hentries : t.heap.entries ref = writes.foldl (enter codec) .empty := by
    rw [hheap, s.heap.entries_setEntries hin, hstart]
  have hfind : ∀ k, (t.heap.entries ref).find? k = lastWritten codec writes k := by
    intro k
    rw [hentries, find?_entered, Dict.find?_empty, Option.or_none]
  have hnodup : (t.heap.entries ref).keys.Nodup := hentries ▸ nodup_entered writes List.nodup_nil
  refine ⟨fun name => ?_, fun name v e hname => ?_, ?_⟩
  · obtain ⟨reg, hget⟩ := get_finds (s := t) hkind hcodec hgives href name
    refine ⟨reg, hget.trans ?_⟩
    simp only [found, hfind]
  · obtain ⟨reg, -, hset⟩ := set_without_key hkind hcodec hgives hname this v
    exact ⟨reg, hset⟩
  · have hread : ∀ k ∈ (t.heap.entries ref).keys, ∃ name, codec.decode name = .ok k := by
      intro k hk
      obtain ⟨v, hv⟩ := Dict.mem_keys_iff.1 hk
      obtain ⟨w, -, hw⟩ := exists_lastWritten.1 ⟨v, (hfind k).symm.trans hv⟩
      exact ⟨w.1, hw⟩
    have htexts : ∀ e ∈ (t.heap.entries ref).entries, ∃ text, codec.encode e.1 = .ok text := by
      intro e he
      obtain ⟨name, hname⟩ := hread e.1 (List.mem_map_of_mem he)
      obtain ⟨text, htext, -⟩ := Codec.encode_of_decode hexact hname
      exact ⟨text, htext⟩
    obtain ⟨reg, hwalk⟩ := walk_visits (s := t) hkind hcodec hgives href htexts
    exact ⟨_, reg, hwalk, entriesVisited hexact hnodup hfind value, fun visit hvisit =>
      visited_property hkind hcodec hgives href hexact hnodup hread hvisit⟩

/-- A map from integers to strings, and writes under several names of one key. -/
theorem entries_of_writes_numbers :
    let strings : TypeExpr :=
      .apply .map [.named PrimitiveKind.int32.primitiveId, .named .string]
    let made : HeapM Unit := modify fun h => (h.allocMap ⟨"HashMap"⟩ .empty).2
    let s := reached {} [.ofType strings, .onHeap fun _ => made]
    let m := (s.registry.models[0]?).getD default
    let this : Value := .map ⟨⟨"HashMap"⟩, 0⟩
    let writes : List (String × Value) :=
      [("01", .text "a"), ("10", .null), (" +1 ", .text "b"), ("ten", .text "c"), ("2", .text "d")]
    let t := (m.setEach this writes s).2
    ∃ codec : Codec, codec.decode " +1 " = .ok (.int32 1) ∧
      (∃ reg, m.get this "1" t = .ok (.text "b") ⟨t.heap, reg⟩) ∧
      ∃ visits reg, m.walk this t = .ok visits ⟨t.heap, reg⟩ ∧
        EntriesVisited codec writes visits := by
  intro strings made s m this writes t
  let c := (s.registry.contents? m).getD default
  let key := c.parameters[0]?.getD default
  let value := c.parameters[1]?.getD default
  let codec := key.codec.getD default
  have hps : m.parameters s.registry = .ok [key, value] s.registry := by
    obtain ⟨k, v, hkv⟩ := List.length_eq_two.1 (show c.parameters.length = 2 by decide +kernel)
    have hparts : [key, value] = c.parameters := by simp [key, value, hkv]
    rw [hparts]
    exact Model.parameters_of_isSome (by decide +kernel)
  have hkind : m.kind = .map := by decide +kernel
  have hcodec : key.codec = some codec := by
    obtain ⟨d, hd⟩ := Option.isSome_iff_exists.1 (show key.codec.isSome = true by decide +kernel)
    simp only [codec, hd, Option.getD_some]
  have hwrites : ∀ w ∈ writes, s.registry.accepts value w.2 = true ∧
      (w.2 = .null → value.isNullable = true) := by decide +kernel
  obtain ⟨-, hget, -, visits, reg, hwalk, hvisited, -⟩ :=
    entries_of_writes hkind hps hcodec (by decide +kernel)
      (show this.asMap = .ok ⟨⟨"HashMap"⟩, 0⟩ from rfl) (by decide +kernel)
      (by decide +kernel) hwrites
  obtain ⟨reg', hone⟩ := hget "1"
  have hfound : found codec writes "1" = .text "b" := by decide +kernel
  exact ⟨codec, by decide +kernel, ⟨reg', hfound ▸ hone⟩, visits, reg, hwalk, hvisited⟩

end Introspect
