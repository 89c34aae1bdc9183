import Introspect.Proofs.Models.Scan

/-!
The fields that properties are made of.

A field property tells no more than a name and where its value is kept. Which field of the superclass chain
it was made of, and what the scan saw of the type of that field, is in the history of the scan.

* `Scan.MadeOf`: what the scan saw of the field when it made the property.
* `addField_made`: one field of the scan.
* `ModelOf.origin`: every property of a model of a reachable registry stands for accessors or has its field.
-/

namespace Introspect

open Registry ClassTable

/-- The property stands for a field, not for a pair of accessors, an index or a key. -/
def Property.isOfField (p : Property) : Bool :=
  match p.access with
  | .slot _ | .finalSlot _ | .component _ | .holder _ => true
  | .accessors _ _ | .index _ _ | .entry _ => false

namespace Scan

variable {S : Scan} {f : Field} {ty : TypeExpr} {stage : Registry} {p : Property} {r r' s : Registry}

/-- The property was made of the field. At some stage before `r` the resolved type of the field was that of a
holder, or of something else, the model of which the property has. -/
structure MadeOf (S : Scan) (f : Field) (ty : TypeExpr) (stage : Registry) (p : Property) (r : Registry) :
    Prop where
  name : p.name = f.name
  native : f.modifiers.isNative = false
  visible : S.isVisible f = true
  type : ClassTable.resolve f.type S.site r.classes = .ok ty r.classes
  earlier : Earlier stage r
  held : stage.classes.isAssignable .holder ty.rawClass = true → p.access = .holder f.name
  slotted : ¬ stage.classes.isAssignable .holder ty.rawClass = true →
    p.access = S.slotAccess f ∧ AnsweredFor p.model ty r

theorem MadeOf.later (h : S.MadeOf f ty stage p r) (hclasses : r.classes.Within s.classes)
    (hmodels : r.models <+: s.models) : S.MadeOf f ty stage p s :=
  { h with
    type := resolve_replays f.type S.site _ _ _ _ h.type hclasses
    earlier := h.earlier.later hclasses hmodels
    slotted := fun hheld => ⟨(h.slotted hheld).1, (h.slotted hheld).2.later hclasses hmodels⟩ }

/-- The scan of another configuration saw the same of its fields. -/
theorem MadeOf.reconfigured (h : S.MadeOf f ty stage p r) (config : Config) :
    MadeOf ⟨S.owner, S.site, config⟩ f ty stage p r :=
  ⟨h.name, h.native, h.visible, h.type, h.earlier, h.held, h.slotted⟩

/-- A property that is not kept in a holder has the model of the type of its field. -/
theorem MadeOf.answered (h : S.MadeOf f ty stage p r) (hp : ∀ name, p.access ≠ .holder name) :
    AnsweredFor p.model ty r := by
  by_cases hheld : stage.classes.isAssignable .holder ty.rawClass = true
  · exact absurd (h.held hheld) (hp f.name)
  · exact (h.slotted hheld).2

/-- What a field leaves among the properties: those that were there, and perhaps one that is made of it. -/
theorem addField_made {ps qs : List Property} (hv : r.Valid) (h : S.addField ps f r = .ok qs r') :
    qs = ps ∨ ∃ p ty stage, S.MadeOf f ty stage p r' ∧ qs = insertProperty p ps := by
  unfold addField at h
  split at h
  · cases h
    exact .inl rfl
  next hseen =>
  obtain ⟨⟨hnative, -⟩, hvisible⟩ : (f.modifiers.isNative = false ∧ hasProperty ps f.name = false) ∧
      S.isVisible f = true := by simpa using hseen
  obtain ⟨p?, r₂, hp, hlast⟩ := bind_eq_ok_iff.1 h
  obtain ⟨ty, r₁, hty, hstep⟩ := fieldProperty?_step hp
  obtain ⟨hv₁, -, hres⟩ := (resolve_keeps f.type S.site).of_ok hv hty
  have hresolved {u : Registry} (hu : r₁.classes.Within u.classes) :
      ClassTable.resolve f.type S.site u.classes = .ok ty u.classes := by
    obtain ⟨t, ht, rfl⟩ := onTable_eq_ok hty
    exact resolve_replays f.type S.site _ _ _ _ ht hu
  cases hstep with
  | skipped =>
    cases hlast
    exact .inl rfl
  | held hheld p hmade =>
    cases hlast
    obtain ⟨-, hg, -⟩ := (holderProperty_keeps f ty).of_ok hv₁ hmade
    obtain ⟨args, held, u, model, -, -, -, rfl⟩ := holderProperty_eq_ok hmade
    exact .inr ⟨_, ty, r₁, ⟨rfl, hnative, hvisible, hresolved hg.within, ⟨hv₁, hg.within, hg.models⟩,
      fun _ => rfl, fun hnot => absurd hheld hnot⟩, rfl⟩
  | slotted hheld model hmodel =>
    cases hlast
    obtain ⟨hv₂, hg, -⟩ := (modelFor_keeps hres).of_ok hv₁ hmodel
    have hanswered : AnsweredFor model ty r' :=
      ⟨r₁, r', hv₁, hmodel, hv₂, Within.refl _, List.prefix_refl _⟩
    exact .inr ⟨_, ty, r₁, ⟨rfl, hnative, hvisible, hresolved hg.within, ⟨hv₁, hg.within, hg.models⟩,
      fun hyes => absurd hyes hheld, fun _ => ⟨rfl, hanswered⟩⟩, rfl⟩

/-- Every property that the fields leave was there before or is made of one of them. -/
theorem addFields_made {fields : List Field} {ps qs : List Property} (hv : r.Valid)
    (hps : AllCached ps r) (h : fields.foldlM S.addField ps r = .ok qs r') :
    ∀ q ∈ qs, q ∈ ps ∨ ∃ f ∈ fields, ∃ ty stage, S.MadeOf f ty stage q r' := by
  have hloop := foldlM_history (f := S.addField)
    (P := fun _ qs s => (s.Valid ∧ AllCached qs s) ∧
      ∀ q ∈ qs, q ∈ ps ∨ ∃ f ∈ fields, ∃ ty stage, S.MadeOf f ty stage q s)
    (fun _ f hf qs₁ s₁ qs₂ s₂ ⟨⟨hv₁, hcached⟩, hmade⟩ hstep => ?_) []
    ⟨⟨hv, hps⟩, fun q hq => .inl hq⟩ h
  · exact hloop.2
  obtain ⟨hv₂, hg, hcached₂⟩ := (addField_keeps hcached f).of_ok hv₁ hstep
  refine ⟨⟨hv₂, hcached₂⟩, fun q hq => ?_⟩
  have hold : q ∈ qs₁ → q ∈ ps ∨ ∃ f ∈ fields, ∃ ty stage, S.MadeOf f ty stage q s₂ := fun hq =>
    (hmade q hq).imp_right fun ⟨g, hg', ty, stage, h⟩ =>
      ⟨g, hg', ty, stage, h.later hg.within hg.models⟩
  rcases addField_made hv₁ hstep with rfl | ⟨p, ty, stage, hp, rfl⟩
  · exact hold hq
  · rcases mem_insertProperty hq with rfl | hq
    · exact .inr ⟨f, hf, ty, stage, hp⟩
    · exact hold hq

end Scan

namespace ModelOf

variable {config : Config} {ops : List Operation} {c : Class} {m : Model} {k : Contents} {p : Property}

/-- A property of a model stands for a pair of accessors, or was made of a field of the superclass chain. -/
theorem origin (h : ModelOf (reached config ops).registry c m k) (hp : p ∈ k.properties) :
    (∃ getter setter, p.access = .accessors getter setter) ∨
      ∃ chain, (reached config ops).registry.classes.superclassChain c = .ok chain ∧
        ∃ f ∈ chainFields chain, ∃ ty stage,
          Scan.MadeOf ⟨c, m.type, config⟩ f ty stage p (reached config ops).registry := by
  obtain ⟨config', r, r', hv, -, hrun, -, hwithin', hmodels⟩ := h.scanned (h.kind_of_property hp)
  obtain ⟨types, ps, r₁, r₂, -, hpairs, hfields, hlast⟩ := Scan.run_eq_ok hrun
  obtain ⟨hv₁, -, hcached⟩ := (Scan.addAccessorPairs_keeps types _).of_ok hv hpairs
  obtain ⟨chain, hchain, hfold⟩ := Scan.addFields_eq_ok hfields
  have hwithin : r₂.classes.Within (reached config ops).registry.classes :=
    Within.trans _ _ _ hlast.within hwithin'
  rcases Scan.addFields_made hv₁ hcached hfold p hp with hp | ⟨f, hf, ty, stage, hmade⟩
  · left
    obtain hsource := (Scan.addAccessorPairs_sourced hpairs (List.Subset.refl _) []).source p hp
    cases hsource with
    | accessors pair _ _ getter setter haccess => exact ⟨getter, setter, haccess⟩
    | holder f hf => cases hf
    | field f hf => cases hf
  · right
    have hgrown := ((Scan.addFields_keeps hcached).of_ok hv₁ hfields).2.1
    refine ⟨chain, superclassChain_of_chainFrom h.declared
      (Within.chainFrom (Within.trans _ _ _ hgrown.within hwithin) (Nat.le_refl _) hchain), f, hf, ty,
      stage, ?_⟩
    exact (hmade.later hwithin (hlast.models.trans hmodels)).reconfigured config

/-- A field property was made of a field. -/
theorem origin_field (h : ModelOf (reached config ops).registry c m k) (hp : p ∈ k.properties)
    (hfield : p.isOfField = true) :
    ∃ chain, (reached config ops).registry.classes.superclassChain c = .ok chain ∧
      ∃ f ∈ chainFields chain, ∃ ty stage,
        Scan.MadeOf ⟨c, m.type, config⟩ f ty stage p (reached config ops).registry := by
  rcases h.origin hp with ⟨getter, setter, haccess⟩ | hmade
  · unfold Property.isOfField at hfield
    rw [haccess] at hfield
    cases hfield
  · exact hmade

end ModelOf
end Introspect
