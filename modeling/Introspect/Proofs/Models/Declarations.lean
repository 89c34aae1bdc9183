import Introspect.Proofs.Models.Runs

/-!
The same declarations made in two registries, one of which has some array classes and models more.

* `Extends.declare`, `declared_extends`: the tables differ by array classes still.
* `Declared`: a declaration changes nothing but the classes.
* `union`: the classes of two tables that do not clash.
-/

namespace Introspect

open Registry ClassTable TypeExpr

/-! ## Tables -/

namespace ClassTable

/-- The table with one class more, unless its id is taken. -/
def declare (t : ClassTable) (c : Class) : ClassTable :=
  match t.define c with
  | .ok t' => t'
  | .error _ => t

/-- The tables have no two classes of one id. -/
def Agree (t t' : ClassTable) : Prop :=
  ∀ id c d, t.find? id = some c → t'.find? id = some d → c = d

variable {t t' : ClassTable}

theorem Agree.of_within {u u' : ClassTable} (h : Agree u u') (ht : t.Within u) (ht' : t'.Within u') :
    Agree t t' :=
  fun id c d hc hd => h id c d (ht id c hc) (ht' id d hd)

theorem declare_of_contains {c : Class} (h : t.contains c.id = true) : t.declare c = t := by
  simp [declare, define, h]

theorem declare_of_new {c : Class} (h : t.contains c.id = false) :
    t.declare c = ⟨c.normalize :: t.classes⟩ := by
  simp [declare, define, h]

theorem find?_declare_self {c : Class} (h : t.contains c.id = false) :
    (t.declare c).find? c.id = some c.normalize := by
  rw [declare_of_new h]
  simp [find?, normalize_id]

theorem find?_declare_of_ne {c : Class} {id : ClassId} (h : c.id ≠ id) :
    (t.declare c).find? id = t.find? id := by
  cases hc : t.contains c.id with
  | true => rw [declare_of_contains hc]
  | false =>
    rw [declare_of_new hc]
    exact find?_cons_of_ne (by rw [normalize_id]; exact h)

/-- The same declaration in a table and in one with some array classes more. -/
theorem Extends.declare (h : t.Extends t') {c : Class} (ha : Agree (t.declare c) (t'.declare c)) :
    (t.declare c).Extends (t'.declare c) := by
  cases hc : t.contains c.id with
  | true =>
    rw [declare_of_contains hc, declare_of_contains (h.within.contains hc)]
    exact h
  | false =>
    have hself := find?_declare_self hc
    obtain ⟨d, hd⟩ : ∃ d, (t'.declare c).find? c.id = some d := by
      cases hc' : t'.contains c.id with
      | true =>
        rw [declare_of_contains hc']
        exact contains_iff.1 hc'
      | false => exact ⟨_, find?_declare_self hc'⟩
    have hsame : d = c.normalize := (ha c.id _ d hself hd).symm
    constructor
    · intro id e he
      by_cases hid : c.id = id
      · subst hid
        rw [hself] at he
        cases he
        rw [hd, hsame]
      · rw [find?_declare_of_ne hid] at he ⊢
        exact h.within id e he
    · intro id e he
      by_cases hid : c.id = id
      · subst hid
        rw [hd] at he
        cases he
        rw [hself, hsame]
        exact .inl rfl
      · rw [find?_declare_of_ne hid] at he ⊢
        exact h.arrays id e he

/-- All classes of both tables; those of the first one win. -/
def union (t t' : ClassTable) : ClassTable := ⟨t.classes ++ t'.classes⟩

theorem find?_union (t t' : ClassTable) (id : ClassId) :
    (t.union t').find? id = (t.find? id).or (t'.find? id) := by
  unfold union find?
  rw [List.find?_append]

theorem within_union_left (t t' : ClassTable) : t.Within (t.union t') := by
  intro id c hc
  rw [find?_union, hc]
  rfl

theorem within_union_right (h : Agree t t') : t'.Within (t.union t') := by
  intro id d hd
  rw [find?_union]
  cases hc : t.find? id with
  | none => exact hd
  | some c =>
    rw [h id c d hc hd]
    rfl

theorem contains_union {id : ClassId} (h : (t.union t').contains id = true) :
    t.contains id = true ∨ t'.contains id = true := by
  obtain ⟨c, hc⟩ := contains_iff.1 h
  rw [find?_union] at hc
  rcases Option.or_eq_some_iff.1 hc with hc | ⟨-, hc⟩
  · exact .inl (contains_iff.2 ⟨c, hc⟩)
  · exact .inr (contains_iff.2 ⟨c, hc⟩)

end ClassTable

/-! ## Registries -/

namespace Registry

/-- The registry after the declarations of some classes. -/
def declared (r : Registry) (cs : List Class) : Registry :=
  cs.foldl (fun r c => after (Registry.define c) r) r

/-- Nothing but classes and the journal has changed. -/
structure Declared (r r' : Registry) : Prop where
  classes : r.classes.Within r'.classes
  models : r'.models = r.models
  contents : r'.contents = r.contents
  codecs : r'.codecs = r.codecs
  config : r'.config = r.config
  order : r'.order = r.order
  live : r'.live = r.live

theorem after_define (c : Class) (r : Registry) :
    (after (Registry.define c) r).classes = r.classes.declare c ∧
      Declared r (after (Registry.define c) r) := by
  unfold declare
  cases h : r.classes.define c with
  | ok t =>
    rw [after_of_ok (by rw [define_apply, h])]
    exact ⟨rfl, define_grows h, rfl, rfl, rfl, rfl, rfl, rfl⟩
  | error e =>
    rw [after_of_error (by rw [define_apply, h])]
    exact ⟨rfl, Within.refl _, rfl, rfl, rfl, rfl, rfl, rfl⟩

theorem declared_declared (r : Registry) (cs : List Class) : Declared r (r.declared cs) := by
  induction cs generalizing r with
  | nil => exact ⟨Within.refl _, rfl, rfl, rfl, rfl, rfl, rfl⟩
  | cons c cs ih =>
    have hstep := (after_define c r).2
    have hrest := ih (after (Registry.define c) r)
    exact
      { classes := Within.trans _ _ _ hstep.classes hrest.classes
        models := hrest.models.trans hstep.models
        contents := hrest.contents.trans hstep.contents
        codecs := hrest.codecs.trans hstep.codecs
        config := hrest.config.trans hstep.config
        order := hrest.order.trans hstep.order
        live := hrest.live.trans hstep.live }

theorem Declared.valid {r r' : Registry} (h : Declared r r') (hv : r.Valid) : r'.Valid where
  place := by rw [h.models]; exact hv.place
  cached m hm := by
    unfold findModel?
    rw [h.models] at hm ⊢
    exact hv.cached m hm
  entry m hm := by
    rw [h.models] at hm
    exact (hv.entry m hm).mono h.classes
  owned := by rw [h.contents, h.models]; exact hv.owned
  closed := by rw [h.contents, h.models]; exact hv.closed

theorem declared_extends {r r' : Registry} (h : r.classes.Extends r'.classes) (cs : List Class)
    (ha : Agree (r.declared cs).classes (r'.declared cs).classes) :
    (r.declared cs).classes.Extends (r'.declared cs).classes := by
  induction cs generalizing r r' with
  | nil => exact h
  | cons c cs ih =>
    refine ih ?_ ha
    have hstep := ha.of_within (declared_declared (after (Registry.define c) r) cs).classes
      (declared_declared (after (Registry.define c) r') cs).classes
    rw [(after_define c r).1, (after_define c r').1] at hstep ⊢
    exact h.declare hstep

end Registry

theorem run_declarations (s : Store) (cs : List Class) :
    (s.run (cs.map Operation.define)).registry = s.registry.declared cs := by
  induction cs generalizing s with
  | nil => rfl
  | cons c cs ih =>
    rw [List.map_cons, Store.run_cons, ih]
    show Registry.declared (after (discard (Store.onRegistry (Registry.define c))) s).registry cs = _
    rw [after_discard, Store.after_onRegistry]
    rfl

/-- A class that was declared under a free id is found under it ever after. -/
theorem reached_declared (config : Config) (before later : List Operation) {c : Class}
    (h : (reached config before).registry.classes.contains c.id = false) :
    (reached config (before ++ .define c :: later)).registry.classes.find? c.id =
      some c.normalize := by
  have hv := reached_valid config before
  have hclasses : ((Operation.define c).perform (reached config before)).registry.classes =
      (reached config before).registry.classes.declare c := by
    show (after (discard (Store.onRegistry (Registry.define c))) _).registry.classes = _
    rw [after_discard, Store.after_onRegistry]
    exact (Registry.after_define c _).1
  have hlater := (run_later (perform_step (.define c) hv).valid later).2
  rw [reached_through]
  refine hlater.classes _ _ ?_
  rw [hclasses]
  exact find?_declare_self h

end Introspect
