import Introspect.Proofs.Models.Access

/-!
Requests made again and again to one model. The first one may initialize it; from then on a request leaves
the registry as it is, but for the lines it logs.

* `Model.Gives`: what the model has for parameters, and the registry in which it is initialized.
* `Gives.again`: the next request finds the same.
* `Model.setEach`: writes in turn, refused ones included.
* `Model.setEach_simulates`: writes in turn are followed by what each of them makes of a state.
* `setProperty_of_accepted`, `after_setProperty`: a write through a property.
* `Registry.exists_accepted`: every model takes some value.
-/

namespace Introspect

/-! ## Members at a place -/

theorem eq_some_getD {α : Type} [Inhabited α] {x : Option α} (h : x.isSome = true) :
    x = some (x.getD default) := by
  obtain ⟨a, rfl⟩ := Option.isSome_iff_exists.1 h
  rfl

theorem getD_mem {α : Type} [Inhabited α] {as : List α} {place : Nat}
    (h : as[place]?.isSome = true) : as[place]?.getD default ∈ as :=
  List.mem_of_getElem? (eq_some_getD h)

namespace Registry

/-- The registry with another journal. -/
def journaled (r : Registry) (lines : List LogLine) : Registry := { r with journal := lines }

theorem model_mem {r : Registry} {place : Nat} (h : r.models[place]?.isSome = true) :
    r.models[place]?.getD default ∈ r.models := getD_mem h

end Registry

namespace Model

variable {m : Model} {ps : List Model} {r reg : Registry}

theorem parameters_eq_ok (h : m.parameters reg = .ok ps r) :
    ∃ c, m.getContents reg = .ok c r ∧ c.parameters = ps := by
  obtain ⟨c, r', hc, h⟩ := bind_eq_ok_iff.1 h
  cases h
  exact ⟨c, hc, rfl⟩

theorem parameters_of_initialized {c : Contents} (h : reg.contents? m = some c) :
    m.parameters reg = .ok c.parameters reg := by
  unfold Model.parameters
  rw [bind_of_ok (getContents_of_initialized h)]
  rfl

theorem parameters_of_isSome (h : (reg.contents? m).isSome = true) :
    m.parameters reg = .ok ((reg.contents? m).getD default).parameters reg := by
  obtain ⟨c, hc⟩ := Option.isSome_iff_exists.1 h
  rw [parameters_of_initialized hc, hc, Option.getD_some]

theorem parameters_of_single (h : (reg.contents? m).isSome = true)
    (hlength : ((reg.contents? m).getD default).parameters.length = 1) :
    m.parameters reg = .ok [((reg.contents? m).getD default).parameters.head?.getD default] reg := by
  obtain ⟨n, hn⟩ := List.length_eq_one_iff.1 hlength
  rw [parameters_of_isSome h, hn]
  rfl

/-- Initialization changes neither the configuration nor whether the registry is there. -/
theorem parameters_settings (hv : reg.Valid) (hm : m ∈ reg.models)
    (h : m.parameters reg = .ok ps r) : r.config = reg.config ∧ r.live = reg.live := by
  obtain ⟨c, hc, -⟩ := parameters_eq_ok h
  rcases getContents_cases m reg with ⟨d, -, h'⟩ | ⟨-, d, r₁, hbuild, h'⟩ | ⟨-, e, r₁, -, h'⟩
  · rw [h'] at hc
    cases hc
    exact ⟨rfl, rfl⟩
  · rw [h'] at hc
    cases hc
    obtain ⟨-, hg, -⟩ :=
      Registry.Keeps.of_ok (build_keeps (hv.entry m hm).resolved) hv hbuild
    exact ⟨hg.config, hg.live⟩
  · rw [h'] at hc
    cases hc

/-- In the registry the model gives these parameters, and leaves `r` but for the journal. -/
def Gives (m : Model) (ps : List Model) (r reg : Registry) : Prop :=
  ∃ lines, m.parameters reg = .ok ps (r.journaled lines)

theorem gives_of_parameters (h : m.parameters reg = .ok ps r) : m.Gives ps r reg := ⟨r.journal, h⟩

/-- Once it is initialized the model gives its parameters without a further step. -/
theorem Gives.parameters (h : m.Gives ps r reg) (lines : List LogLine) :
    m.parameters (r.journaled lines) = .ok ps (r.journaled lines) := by
  obtain ⟨lines', h⟩ := h
  obtain ⟨c, hc, rfl⟩ := parameters_eq_ok h
  have hcontents : (r.journaled lines').contents? m = some c := getContents_ok hc
  exact parameters_of_initialized hcontents

theorem Gives.again (h : m.Gives ps r reg) (lines : List LogLine) :
    m.Gives ps r (r.journaled lines) := ⟨lines, h.parameters lines⟩

/-! ## Writes in turn -/

/-- Writes under names, each to the same instance; after a refused write the next one is made. -/
def setEach (m : Model) (this : Value) :
    List (String × Value) → Store → List (Except Error Value) × Store
  | [], s => ([], s)
  | w :: ws, s =>
    let rest := m.setEach this ws (after (m.set this w.1 w.2) s)
    (outcome (m.set this w.1 w.2) s :: rest.1, rest.2)

end Model

/-- What each write in turn makes of a state, and the state in the end; a refused write leaves it. -/
def writeEach {σ : Type} (f : σ → String × Value → Except Error σ) :
    List (String × Value) → σ → List (Except Error σ) × σ
  | [], a => ([], a)
  | w :: ws, a =>
    let rest := writeEach f ws ((f a w).toOption.getD a)
    (f a w :: rest.1, rest.2)

/-- Writes that are never refused are made one after the other. -/
theorem writeEach_ok {σ β : Type} (g : σ → String × Value → σ) (b : β)
    (writes : List (String × Value)) (a : σ) :
    let left := writeEach (fun a w => .ok (g a w)) writes a
    left.1.map (Except.map fun _ => b) = writes.map (fun _ => .ok b) ∧
      left.2 = writes.foldl g a := by
  induction writes generalizing a with
  | nil => exact ⟨rfl, rfl⟩
  | cons w ws ih =>
    obtain ⟨hresults, hleft⟩ := ih (g a w)
    refine ⟨?_, hleft⟩
    rw [List.map_cons, ← hresults]
    rfl

namespace Model

variable {m : Model} {r : Registry}

/-- If the store stands in relation to a state and every write keeps it there, then after all of them it
stands in relation to the state they lead to. -/
theorem setEach_simulates {σ : Type} {f : σ → String × Value → Except Error σ}
    {R : σ → Store → Prop} (this : Value) {writes : List (String × Value)}
    (hstep : ∀ w ∈ writes, ∀ a s, R a s →
      outcome (m.set this w.1 w.2) s = (f a w).map (fun _ => this) ∧
        R ((f a w).toOption.getD a) (after (m.set this w.1 w.2) s))
    {a : σ} {s : Store} (h : R a s) :
    (m.setEach this writes s).1 = (writeEach f writes a).1.map (Except.map fun _ => this) ∧
      R (writeEach f writes a).2 (m.setEach this writes s).2 := by
  induction writes generalizing a s with
  | nil => exact ⟨rfl, h⟩
  | cons w ws ih =>
    obtain ⟨houtcome, hnext⟩ := hstep w (List.mem_cons_self ..) a s h
    obtain ⟨hrest, hleft⟩ := ih (fun w' hw => hstep w' (List.mem_cons_of_mem _ hw)) hnext
    refine ⟨?_, hleft⟩
    show outcome (m.set this w.1 w.2) s :: _ = Except.map _ (f a w) :: _
    rw [houtcome, hrest]

/-! ## One request under a name -/

theorem set_of_property {name : String} {p? : Option Property} {s : Store}
    (h : m.property? name s.registry = .ok p? r) (this v : Value) :
    m.set this name v s = setProperty this p? v { s with registry := r } := by
  unfold set
  rw [bind_of_ok (Store.onRegistry_of_ok h)]

theorem get_of_property {name : String} {p? : Option Property} {s : Store}
    (h : m.property? name s.registry = .ok p? r) (this : Value) :
    m.get this name s = getProperty this p? { s with registry := r } := by
  unfold get
  rw [bind_of_ok (Store.onRegistry_of_ok h)]

end Model

/-! ## Access through a property -/

theorem getProperty_object (p : Property) (ref : Ref) (s : Store) :
    getProperty (.object ref) (some p) s = p.read (.object ref) s := rfl

/-- A value that is kept in a slot is read as it is. -/
theorem getProperty_plain {p : Property} (hp : p.access = .slot p.name ∨ p.access = .finalSlot p.name ∨
    p.access = .component p.name) (ref : Ref) (s : Store) :
    getProperty (.object ref) (some p) s = .ok (s.heap.slotOrNull ref p.name) s := by
  rw [getProperty_object, Property.read]
  rcases hp with hp | hp | hp <;> rw [hp] <;> rfl

theorem setProperty_of_accepted {p : Property} {this v : Value} {s : Store}
    (hi : ignoresWrite p this v = false) (ha : s.registry.accepts p.model v = true) :
    setProperty this (some p) v s = p.write this v s := by
  simp only [setProperty, hi, Bool.false_eq_true, if_false]
  rw [bind_apply, get_apply]
  simp only [ha, if_true]

theorem setProperty_of_refused {p : Property} {this v : Value} {s : Store}
    (hi : ignoresWrite p this v = false) (ha : s.registry.accepts p.model v = false) :
    setProperty this (some p) v s = .error (v.mismatch p.model.type.display) s := by
  simp only [setProperty, hi, Bool.false_eq_true, if_false]
  rw [bind_apply, get_apply]
  simp only [ha, Bool.false_eq_true, if_false]
  rfl

theorem setProperty_ignored {p : Property} {this v : Value} (h : ignoresWrite p this v = true)
    (s : Store) : setProperty this (some p) v s = .ok this s := by
  simp only [setProperty, h, if_true]
  rfl

/-- A write that is ignored or refused leaves the store as it was. -/
theorem after_setProperty (p : Property) (this v : Value) (s : Store) :
    after (setProperty this (some p) v) s = s ∨
      after (setProperty this (some p) v) s = after (p.write this v) s := by
  cases hi : ignoresWrite p this v with
  | true => exact .inl (after_of_ok (setProperty_ignored hi s))
  | false =>
    cases ha : s.registry.accepts p.model v with
    | false => exact .inl (after_of_error (setProperty_of_refused hi ha))
    | true =>
      right
      unfold after
      rw [setProperty_of_accepted hi ha]

/-! ## Values that are accepted -/

namespace Value

theorem zero_primitiveKind? (kind : PrimitiveKind) : (zero kind).primitiveKind? = some kind := by
  cases kind <;> rfl

theorem zero_isNull (kind : PrimitiveKind) : (zero kind).isNull = false := by
  cases kind <;> rfl

theorem zero_runtimeClass? (kind : PrimitiveKind) :
    (zero kind).runtimeClass? = some kind.wrapperId := by
  cases kind <;> rfl

end Value

namespace Registry

theorem accepts_primitive {r : Registry} {m : Model} {kind : PrimitiveKind} {v : Value}
    (hm : m.cls.kind = .primitive kind false) (hv : v.isNull = false) :
    r.accepts m v = true ↔ v.primitiveKind? = some kind := by
  unfold accepts Class.primitiveKind?
  simp [hm, hv]

theorem accepts_enumeration {r : Registry} {m : Model} {v : Value} {id : ClassId} (hlive : r.live = true)
    (hm : m.cls.isEnum = true) (hv : v.runtimeClass? = some id) :
    r.accepts m v = true ↔ r.classes.isAssignable m.raw id = true := by
  have hnull : v.isNull = false := by cases v <;> first | rfl | cases hv
  have hkind : m.cls.primitiveKind? = none := by
    unfold Class.isEnum at hm
    unfold Class.primitiveKind?
    split at hm
    · next hk => rw [hk]
    · cases hm
  unfold accepts
  simp [hnull, hkind, hv, hlive]

/-- Every model takes some value, and null only if it is nullable. -/
theorem exists_accepted {r : Registry} (hlive : r.live = true) (m : Model) :
    ∃ v, r.accepts m v = true ∧ (v.isNull = true → m.isNullable = true) := by
  cases hn : m.isNullable with
  | true => exact ⟨.null, rfl, fun _ => rfl⟩
  | false =>
    have hkind : m.cls.isStrictPrimitive = true ∨ m.cls.isEnum = true := by
      unfold Model.isNullable Class.isNullable at hn
      cases hs : m.cls.isStrictPrimitive with
      | true => exact .inl rfl
      | false => exact .inr (by simpa [hs] using hn)
    rcases hkind with hs | he
    · obtain ⟨kind, hkind⟩ : ∃ kind, m.cls.kind = .primitive kind false := by
        unfold Class.isStrictPrimitive at hs
        split at hs
        · next kind hk => exact ⟨kind, hk⟩
        · cases hs
      have hzero := Value.zero_isNull kind
      exact ⟨.zero kind, (accepts_primitive hkind hzero).2 (Value.zero_primitiveKind? kind), by simp [hzero]⟩
    · refine ⟨.enumConstant m.raw "", (accepts_enumeration hlive he rfl).2 ?_, nofun⟩
      simp [ClassTable.isAssignable]

end Registry

end Introspect
