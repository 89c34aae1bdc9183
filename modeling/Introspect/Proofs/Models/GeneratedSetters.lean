import Introspect.Items.Declare
import Introspect.Proofs.Models.AccessorNames
import Introspect.Proofs.Models.FailedWrite

/-!
Classes whose methods are all generated, and what a write through their setters runs.

* `Item.declare_methodsGenerated`: a declared item has no other methods.
* `Dispatch.call_cases`: a call fails, or leaves the rest to the body that it runs.
* `ModelOf.setter_origin`: the setter of a property is an accessor of a supertype.
* `ModelOf.setter_writes`: such a body writes the slot of a field that has a generated setter.
-/

namespace Introspect

open Registry ClassTable

/-! ## Generated methods -/

/-- Every method of the class is a generated accessor of one of its fields. -/
def Class.MethodsGenerated (c : Class) : Prop :=
  ∀ m ∈ c.methods, ∃ g ∈ c.fields, ∃ role, m = generated role g

theorem Class.methodsGenerated_of_isEmpty {c : Class} (h : c.methods.isEmpty = true) :
    c.MethodsGenerated := by
  intro m hm
  rw [List.isEmpty_iff.1 h] at hm
  cases hm

theorem Class.MethodsGenerated.normalize {c : Class} (h : c.MethodsGenerated) :
    c.normalize.MethodsGenerated := by
  unfold Class.normalize
  split
  · exact h
  · exact h

/-- A generated method that takes an argument is a setter. -/
theorem generated_eq_setter {m : Method} {role : AccessorRole} {g : Field} (h : m = generated role g)
    (harity : m.arity = 1) : m = Declaration.setterOf g := by
  cases role with
  | getter => rw [h] at harity; cases harity
  | setter => exact h

namespace Declaration

variable {d : Declaration}

theorem field_methodsGenerated (h : d.draft.MethodsGenerated) (f : Field) :
    (d.field f).draft.MethodsGenerated := by
  intro m hm
  obtain ⟨g, hg, role, hrole⟩ := h m hm
  exact ⟨g, List.mem_append_left _ hg, role, hrole⟩

theorem accessorField_methodsGenerated (h : d.draft.MethodsGenerated) (f : Field) :
    (d.accessorField f).draft.MethodsGenerated := by
  have hf : f ∈ d.draft.fields ++ [f] := List.mem_append_right _ (List.mem_singleton_self f)
  intro m hm
  rcases List.mem_append.1 hm with hm | hm
  · rcases List.mem_append.1 hm with hm | hm
    · exact field_methodsGenerated h f m hm
    · exact ⟨f, hf, .getter, List.mem_singleton.1 hm⟩
  · exact ⟨f, hf, .setter, List.mem_singleton.1 hm⟩

end Declaration

theorem addItemField_methodsGenerated {options : ItemOptions} {scope : ItemScope} {d e : Declaration}
    {f : SourceField} (hd : d.draft.MethodsGenerated) (h : addItemField options scope d f = .ok e) :
    e.draft.MethodsGenerated := by
  unfold addItemField at h
  obtain ⟨o, -, h⟩ := except_bind_eq_ok h
  split at h
  · cases h
    exact hd
  obtain ⟨ty, -, h⟩ := except_bind_eq_ok h
  simp only at h
  split at h
  · cases h
    exact Declaration.field_methodsGenerated hd _
  split at h
  · cases h
    exact Declaration.accessorField_methodsGenerated hd _
  · cases h
    exact Declaration.field_methodsGenerated hd _

theorem addItemFields_methodsGenerated {options : ItemOptions} {scope : ItemScope} {fields : List SourceField}
    {d e : Declaration} (hd : d.draft.MethodsGenerated)
    (h : fields.foldlM (addItemField options scope) d = .ok e) : e.draft.MethodsGenerated := by
  induction fields generalizing d with
  | nil =>
    cases h
    exact hd
  | cons f fs ih =>
    rw [List.foldlM_cons] at h
    obtain ⟨d', hstep, h⟩ := except_bind_eq_ok h
    exact ih (addItemField_methodsGenerated hd hstep) h

/-- The steps of a declaration other than fields leave its methods alone. -/
theorem foldl_methods {α : Type} {f : Declaration → α → Declaration}
    (hf : ∀ d a, (f d a).draft.methods = d.draft.methods) (as : List α) (d : Declaration) :
    (as.foldl f d).draft.methods = d.draft.methods := by
  induction as generalizing d with
  | nil => rfl
  | cons a as ih => rw [List.foldl_cons, ih, hf]

theorem declareStruct_methodsGenerated {options : ItemOptions} {scope : ItemScope}
    {fields : List SourceField} {d : Declaration} (h : declareStruct options scope fields = .ok d) :
    d.draft.MethodsGenerated := by
  unfold declareStruct at h
  obtain ⟨superclass, -, h⟩ := except_bind_eq_ok h
  obtain ⟨interfaces, -, h⟩ := except_bind_eq_ok h
  have hstart : (if options.isRecord then Declaration.record scope.className
      else Declaration.plain scope.className).draft.methods = [] := by
    split <;> rfl
  have hparams := foldl_methods (f := fun d p => d.typeParam p []) (fun _ _ => rfl) scope.params
    (if options.isRecord then .record scope.className else .plain scope.className)
  refine addItemFields_methodsGenerated (Class.methodsGenerated_of_isEmpty ?_) h
  rw [foldl_methods (f := Declaration.withInterface) (fun _ _ => rfl)]
  cases superclass with
  | none => exact List.isEmpty_iff.2 (hparams.trans hstart)
  | some ty => exact List.isEmpty_iff.2 (hparams.trans hstart)

/-- The methods of a declared item are generated accessors of its fields. -/
theorem Item.declare_methodsGenerated {item : Item} {d : Declaration} (h : item.declare = .ok d) :
    d.draft.MethodsGenerated := by
  unfold Item.declare at h
  obtain ⟨options, -, h⟩ := except_bind_eq_ok h
  cases hbody : item.body with
  | unnamed | union => simp only [hbody] at h; cases h
  | fields fields =>
    simp only [hbody] at h
    exact declareStruct_methodsGenerated h
  | variants variants =>
    simp only [hbody] at h
    unfold declareEnum at h
    split at h
    · cases h
    split at h
    · cases h
    · cases h
      exact Class.methodsGenerated_of_isEmpty rfl

/-! ## Supertypes with generated accessors only -/

/-- All methods that the class has, its own and inherited ones, are generated accessors. -/
def AccessorsOnly (t : ClassTable) (id : ClassId) : Prop :=
  ∃ types, t.supertypes id = .ok types ∧ ∀ d ∈ types, d.MethodsGenerated

/-- One of the classes has a generated setter for a field of the name. -/
def SetsSlot (types : List Class) (slot : String) : Prop :=
  ∃ d ∈ types, ∃ g ∈ d.fields, Declaration.setterOf g ∈ d.methods ∧ g.name = slot

/-- The supertypes of a class may have no methods. -/
theorem AccessorsOnly.of_supertypes {t : ClassTable} {c : Class} (hc : t.find? c.id = some c)
    (hown : c.MethodsGenerated)
    (habove : (t.supertypes c.id).toOption.any fun types => types.tail.all (·.methods.isEmpty)) :
    AccessorsOnly t c.id := by
  cases htypes : t.supertypes c.id with
  | error e => rw [htypes] at habove; cases habove
  | ok types =>
    rw [htypes] at habove
    obtain ⟨rest, rfl⟩ := supertypes_eq_cons hc htypes
    refine ⟨_, htypes, fun d hd => ?_⟩
    rcases List.mem_cons.1 hd with rfl | hd
    · exact hown
    · exact Class.methodsGenerated_of_isEmpty (List.all_eq_true.1 habove d hd)

/-- A setter is named after its field. -/
theorem not_setsSlot {types : List Class} {slot : String}
    (h : types.all fun d => d.methods.all (·.name ≠ "set" ++ Text.capitalize slot)) : ¬ SetsSlot types slot := by
  rintro ⟨d, hd, g, -, hg, rfl⟩
  exact of_decide_eq_true (List.all_eq_true.1 (List.all_eq_true.1 h d hd) _ hg) rfl

/-- A call changes nothing by itself: it fails, or leaves it to the body that it runs. -/
theorem Dispatch.call_cases {d : Dispatch} {this : Value} {id : ClassId} {types : List Class} {s : Store}
    (hthis : this.runtimeClass? = some id) (htypes : s.registry.classes.supertypes id = .ok types)
    (args : List Value) :
    (∃ e, d.call this args s = .error e s) ∨
      ∃ body, d.bodyAmong types args.length = some body ∧
        d.call this args s = Store.onHeap (body this args) s := by
  cases hlive : s.registry.live with
  | false =>
    have hdead : Store.onRegistry Registry.requireLive s = .error .registryDropped s := by
      unfold Store.onRegistry
      rw [Registry.requireLive_apply, hlive]
      rfl
    refine .inl ⟨.registryDropped, ?_⟩
    unfold Dispatch.call Dispatch.body
    rw [bind_assoc, bind_of_error hdead]
  | true =>
    have hcall := d.call_eq hlive hthis htypes args
    cases hbody : d.bodyAmong types args.length with
    | none => rw [hbody] at hcall; exact .inl ⟨_, hcall⟩
    | some body => rw [hbody] at hcall; exact .inr ⟨body, rfl, hcall⟩

/-- A body that is among the classes is that of a generated setter. -/
theorem firstBody_generated {types : List Class} {name : String} {body : MethodBody}
    (htypes : ∀ d ∈ types, d.MethodsGenerated) (h : firstBody name 1 types = some body) :
    ∃ slot, body = MethodBody.writeSlot slot ∧ SetsSlot types slot := by
  obtain ⟨d, hd, m, hm, hbody⟩ := firstBody_eq_some h
  have hmem : m ∈ d.methods := List.mem_of_find?_eq_some hm
  have harity : m.arity = 1 := by
    have hfound := List.find?_some hm
    simp only [Bool.and_eq_true, decide_eq_true_eq] at hfound
    exact hfound.2
  obtain ⟨g, hg, role, hrole⟩ := htypes d hd m hmem
  obtain rfl := generated_eq_setter hrole harity
  exact ⟨g.name, (Option.some.inj hbody).symm, d, hd, g, hg, hmem, rfl⟩

/-! ## Setters of properties -/

theorem firstAccessor?_eq_some {as : List Accessor} {role : AccessorRole} {name : String} {m : Method}
    (h : firstAccessor? as role name = some m) : ∃ a ∈ as, a.role = role ∧ a.property = name ∧ a.method = m := by
  obtain ⟨a, ha, rfl⟩ := Option.map_eq_some_iff.1 h
  have hfound := List.find?_some ha
  simp only [Bool.and_eq_true, decide_eq_true_eq] at hfound
  exact ⟨a, List.mem_of_find?_eq_some ha, hfound.1, hfound.2, rfl⟩

/-- The setter is an accessor of the name that one of the classes declares. -/
def Dispatch.IsSetterIn (setter : Dispatch) (types : List Class) (name : String) : Prop :=
  ∃ d ∈ types, ∃ m ∈ d.methods, m.accessor? = some (.setter, name) ∧ setter.method = m.name ∧
    setter.declared = m.body

theorem Scan.dispatch_isSetterIn (S : Scan) {config : Config} {types : List Class} {pair : AccessorPair}
    {m : Method} (hpair : pair ∈ accessorPairs (types.flatMap (·.accessors config)))
    (hm : pair.setter = some m) : (S.dispatch m).IsSetterIn types pair.property := by
  obtain ⟨name, -, rfl⟩ := List.mem_map.1 hpair
  obtain ⟨a, ha, hrole, rfl, rfl⟩ := firstAccessor?_eq_some hm
  obtain ⟨d, hd, ha⟩ := List.mem_flatMap.1 ha
  obtain ⟨hmethod, haccessor⟩ := accessors_declared ha
  exact ⟨d, hd, a.method, hmethod, by rw [haccessor, hrole], rfl, rfl⟩

/-- The properties that stand for accessors have setters that the classes declare. -/
def SettersIn (types : List Class) (ps : List Property) : Prop :=
  ∀ p ∈ ps, ∀ getter setter, p.access = .accessors getter setter → setter.IsSetterIn types p.name

theorem SettersIn.insert {types : List Class} {ps : List Property} {p : Property} (hps : SettersIn types ps)
    (hp : ∀ getter setter, p.access = .accessors getter setter → setter.IsSetterIn types p.name) :
    SettersIn types (insertProperty p ps) := by
  intro q hq
  rcases mem_insertProperty hq with rfl | hq
  · exact hp
  · exact hps q hq

theorem Scan.run_setters {S : Scan} {r r' : Registry} {ps : List Property} (h : S.run r = .ok ps r') :
    ∃ types, r.classes.supertypes S.owner.id = .ok types ∧ SettersIn types ps := by
  obtain ⟨types, ps₁, r₁, r₂, htypes, hpairs, hfields, -⟩ := run_eq_ok h
  obtain ⟨chain, -, hfold⟩ := addFields_eq_ok hfields
  refine ⟨types, htypes, ?_⟩
  have hfirst : SettersIn types ps₁ := by
    refine foldlM_induct (fun pair hpair qs s qs' s' hqs hstep => ?_) (List.forall_mem_nil _) hpairs
    cases addAccessorPair_step hstep with
    | incomplete | typeless | refused => exact hqs
    | added getter setter returns param value taken r₃ htypes' hfits model hmodel =>
      refine hqs.insert fun getter' setter' haccess => ?_
      cases haccess
      exact S.dispatch_isSetterIn (r.order.mem_arrange.1 hpair) htypes'.hsetter
  -- no field makes a property of this kind
  refine foldlM_induct (fun f hf qs s qs' s' hqs hstep => ?_) hfirst hfold
  rcases addField_eq_ok [] hf hstep with rfl | ⟨p, hsource, rfl⟩
  · exact hqs
  · refine hqs.insert fun getter setter haccess => ?_
    cases hsource with
    | accessors pair hpair => cases hpair
    | holder g hg hname h => rw [h] at haccess; cases haccess
    | field g hg hname h =>
      rw [h, Scan.slotAccess] at haccess
      split at haccess
      · cases haccess
      · split at haccess <;> cases haccess

theorem ModelOf.setter_origin {config : Config} {ops : List Operation} {c : Class} {m : Model} {k : Contents}
    {p : Property} {getter setter : Dispatch} (h : ModelOf (reached config ops).registry c m k)
    (hp : p ∈ k.properties) (haccess : p.access = .accessors getter setter) :
    ∃ types, (reached config ops).registry.classes.supertypes c.id = .ok types ∧
      setter.IsSetterIn types p.name := by
  obtain ⟨config', r, r', -, -, hrun, hwithin, -⟩ := h.scanned (h.kind_of_property hp)
  obtain ⟨types, htypes, hsetters⟩ := Scan.run_setters hrun
  exact ⟨types, hwithin.supertypes htypes, hsetters p hp getter setter haccess⟩

/-- Where all methods are generated, so is the setter. -/
theorem Dispatch.IsSetterIn.generated {setter : Dispatch} {types : List Class} {name : String}
    (h : setter.IsSetterIn types name) (htypes : ∀ d ∈ types, d.MethodsGenerated) :
    ∃ slot, setter.declared = some (MethodBody.writeSlot slot) ∧ SetsSlot types slot := by
  obtain ⟨d, hd, m, hm, haccessor, -, hdeclared⟩ := h
  obtain ⟨g, hg, role, rfl⟩ := htypes d hd m hm
  rw [accessor?_generated] at haccessor
  obtain ⟨name', -, heq⟩ := Option.map_eq_some_iff.1 haccessor
  cases heq
  exact ⟨g.name, hdeclared, d, hd, g, hg, hm, rfl⟩

/-- What a write through the setter runs, if it runs anything: it writes the slot of a field that has a generated
setter, in one of the supertypes of the receiver or of the class of the model. -/
theorem ModelOf.setter_writes {config : Config} {ops : List Operation} {c : Class} {m : Model} {k : Contents}
    {p : Property} {getter setter : Dispatch} (h : ModelOf (reached config ops).registry c m k)
    (hown : AccessorsOnly (reached config ops).registry.classes c.id) (hp : p ∈ k.properties)
    (haccess : p.access = .accessors getter setter) {types : List Class}
    (htypes : ∀ d ∈ types, d.MethodsGenerated) {body : MethodBody}
    (hbody : setter.bodyAmong types 1 = some body) :
    ∃ slot, body = MethodBody.writeSlot slot ∧ (SetsSlot types slot ∨
      ∃ own, (reached config ops).registry.classes.supertypes c.id = .ok own ∧ SetsSlot own slot) := by
  unfold Dispatch.bodyAmong at hbody
  rcases Option.or_eq_some_iff.1 hbody with hfirst | ⟨-, hlast⟩
  · obtain ⟨slot, hslot, hsets⟩ := firstBody_generated htypes hfirst
    exact ⟨slot, hslot, .inl hsets⟩
  · obtain ⟨own, howns, hsetter⟩ := h.setter_origin hp haccess
    obtain ⟨own', howns', hgenerated⟩ := hown
    cases howns.symm.trans howns'
    obtain ⟨slot, hdeclared, hsets⟩ := hsetter.generated hgenerated
    cases hdeclared.symm.trans hlast
    exact ⟨slot, rfl, .inr ⟨own, howns, hsets⟩⟩

end Introspect
