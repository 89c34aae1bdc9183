import Introspect.Proofs.Models.Comparison
import Introspect.Proofs.Models.Likeness
import Introspect.Proofs.Models.Scan

/-!
Scans made while nothing is declared or registered.

Such a stretch of operations only makes array classes and models. When no declaration names an array class
that is made on the way, the registry at its end gives every answer that a scan was given before: it resolves
the same types, assigns the same classes and finds the same models. So what a scan has answered is read off
the last registry.

* `Operation.Quiet`, `run_quiet`: what the operations of the stretch leave, and when contents were built.
* `Toward`: a stage on the way.
* `PairStep.settle`, `FieldStep.settle`: the steps of a scan, made again at the end.
* `PairStep.swap`: there the accessor pairs may be visited in any order.
* `addAccessorPairs_settle`, `addEach_settle`: its loops.
* `Scan.run_settled`, `settled_of_quiet`: the whole scan.
-/

namespace Introspect

open Registry ClassTable TypeExpr

/-! ## Quiet operations -/

/-- The operation declares no class, registers no codec, and private accessors are scanned as before or left
out as before. -/
def Operation.Quiet (privateAccessors : Bool) : Operation → Prop
  | .define _ | .registerCodec _ _ => False
  | .setConfig config => config.privateAccessors = privateAccessors
  | _ => True

/-- The contents that are there after a stretch were there before it, or were built during it. -/
def Registry.BuiltOver (r r' : Registry) : Prop :=
  ∀ (id : Nat) (c : Contents), r'.contents.find? id = some c →
    r.contents.find? id = some c ∨ BuiltSince none r r' id c

theorem perform_quiet {op : Operation} {s : Store} (hv : s.registry.Valid)
    (hop : op.Quiet s.registry.config.privateAccessors) :
    s.registry.Calm (op.perform s).registry ∧ s.registry.BuiltOver (op.perform s).registry := by
  have asked : op.change = none →
      s.registry.Calm (op.perform s).registry ∧ s.registry.BuiltOver (op.perform s).registry := by
    intro hnone
    have hstep := perform_step op hv
    rw [hnone] at hstep
    exact ⟨hstep.calm rfl, hstep.built⟩
  cases op with
  | define c => exact hop.elim
  | registerCodec id codec => exact hop.elim
  | setConfig config => exact ⟨⟨Extends.refl _, rfl, hop⟩, fun _ _ hc => .inl hc⟩
  | _ => exact asked rfl

theorem run_quiet {s : Store} (hv : s.registry.Valid) {ops : List Operation}
    (hops : ∀ op ∈ ops, op.Quiet s.registry.config.privateAccessors) :
    s.registry.Calm (s.run ops).registry ∧ s.registry.BuiltOver (s.run ops).registry := by
  induction ops generalizing s with
  | nil => exact ⟨Calm.refl _, fun _ _ hc => .inl hc⟩
  | cons op ops ih =>
    obtain ⟨hcalm, hbuilt⟩ := perform_quiet hv (hops op List.mem_cons_self)
    have hv' := (perform_step op hv).valid
    obtain ⟨hcalm', hbuilt'⟩ := ih hv' fun op' hop' => by
      rw [hcalm.accessors]
      exact hops op' (List.mem_cons_of_mem op hop')
    have hlater := (run_later hv' ops).2
    refine ⟨hcalm.trans hcalm', fun id c hc => ?_⟩
    rcases hbuilt' id c hc with hc | hc
    · exact (hbuilt id c hc).imp_right fun h => h.later hlater.classes hlater.models
    · exact .inr (hc.after fun _ => hcalm)

/-! ## Stages -/

namespace Registry

variable {v r r' : Registry}

/-- A stage on the way to `v`: it has the codecs of `v`, and nothing it declares names a class that only `v`
knows. -/
structure Toward (v r : Registry) : Prop where
  stage : Stage v.classes r
  models : r.models <+: v.models
  codecs : r.codecs = v.codecs

theorem Toward.grow (h : Toward v r) (hg : r.Grown r') (he : Earlier r' v) : Toward v r' :=
  ⟨h.stage.later hg he.valid he.classes, he.models, hg.codecs.trans h.codecs⟩

/-- What leads to an earlier stage is an earlier stage. -/
theorem Earlier.back (he : Earlier r' v) (hv : r.Valid) (hg : r.Grown r') : Earlier r v :=
  ⟨hv, Within.trans _ _ _ hg.within he.classes, hg.models.trans he.models⟩

theorem Toward.refl (hv : v.Valid) (hobject : v.classes.contains .object = true) : Toward v v :=
  ⟨⟨hv, Within.refl _, hobject, fun _ _ _ _ _ _ _ h => h⟩, List.prefix_refl _, rfl⟩

/-- What resolved before resolves to the same, and makes no class any more. -/
theorem Earlier.resolve (he : Earlier r' v) {ty site answer : TypeExpr}
    (h : onTable (ClassTable.resolve ty site) r = .ok answer r') :
    onTable (ClassTable.resolve ty site) v = .ok answer v := by
  obtain ⟨t, ht, rfl⟩ := onTable_eq_ok h
  exact onTable_of_unchanged (resolve_replays ty site _ _ _ _ ht he.classes)

/-- A class leads to the same key in two registries with the same codecs. -/
theorem keyFor_agrees {u : ClassTable} {x y : Registry} (hx : Anchored u x.classes)
    (hy : Anchored u y.classes) (hcodecs : x.codecs = y.codecs) {c : Class}
    (hcx : x.classes.contains c.id = true) (hcy : y.classes.contains c.id = true) (raw : ClassId)
    (args : List TypeExpr) : x.keyFor c raw args = y.keyFor c raw args := by
  unfold Registry.keyFor
  rw [hcodecs, kindOf_agrees hx hy hcx hcy]

/-- The model that was found before is found again. -/
theorem Toward.modelFor (h : Toward v r) (hv : Toward v v) (he : Earlier r' v) {ty : TypeExpr} {m : Model}
    (hty : Resolved (depthLimit + 1) ty) (hm : modelFor ty r = .ok m r') : modelFor ty v = .ok m v := by
  have hcached : m ∈ r'.models := ((modelFor_keeps hty).of_ok h.stage.valid hm).2.2
  refine modelWithin_again h.stage.valid hty hm he.classes
    (hv.stage.valid.cached m (he.models.subset hcached)) fun s c args hs hs' hc => ?_
  have hwithin : s.classes.Within v.classes := Within.trans _ _ _ hs'.within he.classes
  have hin := contains_of_lookup hc
  exact keyFor_agrees hv.stage.anchored (h.stage.anchored.extend hs.classes hwithin)
    (h.codecs.symm.trans hs.codecs.symm) (hwithin.contains hin) hin m.raw args

end Registry

/-! ## Steps of a scan -/

namespace Scan

variable {S : Scan} {v r r' : Registry} {types : List Class}

section Pairs

variable {pair : AccessorPair} {getter setter : Method} {returns param value taken : TypeExpr}

theorem PairTypes.kept (ht : S.PairTypes pair r r' getter setter returns param value taken) (hv : r.Valid) :
    r'.Valid ∧ r.Grown r' ∧ Resolved (depthLimit + 1) value := by
  obtain ⟨r₁, hvalue, htaken⟩ := ht.hresolved
  obtain ⟨hv₁, hg₁, hres⟩ := (resolve_keeps returns S.site).of_ok hv hvalue
  obtain ⟨hv', hg', -⟩ := (resolve_keeps param S.site).of_ok hv₁ htaken
  exact ⟨hv', hg₁.trans hg', hres⟩

/-- The accessors have the same types at the end, and the one type fits the other when it did before. -/
theorem PairTypes.settle (ht : S.PairTypes pair r r' getter setter returns param value taken) (h : Toward v r)
    (he : Earlier r' v) (hsite : Grounded v.classes r.classes S.site)
    (hreturns : Grounded v.classes r.classes returns) :
    S.PairTypes pair v v getter setter returns param value taken ∧
      v.classes.isAssignable taken.rawClass value.rawClass =
        r'.classes.isAssignable taken.rawClass value.rawClass := by
  obtain ⟨r₁, hvalue, htaken⟩ := ht.hresolved
  obtain ⟨hv₁, -, hres⟩ := (resolve_keeps returns S.site).of_ok h.stage.valid hvalue
  obtain ⟨-, hg', -⟩ := (resolve_keeps param S.site).of_ok hv₁ htaken
  have he₁ := he.back hv₁ hg'
  have hgrounded : Grounded v.classes r'.classes value :=
    (resolve_grounded h.stage hreturns hsite hvalue he₁.classes).mono hg'.within
  have htoward := h.grow (ht.kept h.stage.valid).2.1 he
  exact ⟨⟨ht.hgetter, ht.hsetter, ht.hreturns, ht.hparam, v, he₁.resolve hvalue, he.resolve htaken⟩,
    htoward.stage.anchored.isAssignable (hgrounded.rawClass hres) _⟩

/-- An accessor pair makes at the end what it made before. -/
theorem PairStep.settle {ps qs : List Property} (hstep : S.PairStep types ps pair r r' qs) (h : Toward v r)
    (hv : Toward v v) (he : Earlier r' v) (hsite : Grounded v.classes r.classes S.site)
    (hgetter : ∀ m ty, pair.getter = some m → m.returns = some ty → Grounded v.classes r.classes ty) :
    S.PairStep types ps pair v v qs := by
  cases hstep with
  | incomplete hnone => exact .incomplete hnone
  | typeless getter setter hg hs hnone => exact .typeless getter setter hg hs hnone
  | refused getter setter returns param value taken r₁ htypes hrefused hlast =>
    have he₁ := he.back (htypes.kept h.stage.valid).1 hlast
    obtain ⟨htypes', hassign⟩ :=
      htypes.settle h he₁ hsite (hgetter getter returns htypes.hgetter htypes.hreturns)
    exact .refused _ _ _ _ _ _ _ htypes' (hassign ▸ hrefused) (Grown.refl v)
  | added getter setter returns param value taken r₁ htypes hfits model hmodel =>
    obtain ⟨hv₁, hg₁, hres⟩ := htypes.kept h.stage.valid
    have he₁ := he.back hv₁ ((modelFor_keeps hres).of_ok hv₁ hmodel).2.1
    obtain ⟨htypes', hassign⟩ :=
      htypes.settle h he₁ hsite (hgetter getter returns htypes.hgetter htypes.hreturns)
    exact .added _ _ _ _ _ _ _ htypes' (hassign.trans hfits) model
      ((h.grow hg₁ he₁).modelFor hv he hres hmodel)

/-- A pair leaves all properties alone, or adds the one it has to them. -/
theorem PairStep.made {ps qs : List Property} (h : S.PairStep types ps pair r r' qs) :
    (qs = ps ∧ ∀ ps, S.PairStep types ps pair r r' ps) ∨
      ∃ p, p.name = pair.property ∧ qs = insertProperty p ps ∧
        ∀ ps, S.PairStep types ps pair r r' (insertProperty p ps) := by
  cases h with
  | incomplete hnone => exact .inl ⟨rfl, fun _ => .incomplete hnone⟩
  | typeless _ _ hg hs hnone => exact .inl ⟨rfl, fun _ => .typeless _ _ hg hs hnone⟩
  | refused _ _ _ _ _ _ _ htypes hrefused hlast =>
    exact .inl ⟨rfl, fun _ => .refused _ _ _ _ _ _ _ htypes hrefused hlast⟩
  | added _ _ _ _ _ _ _ htypes hfits model hmodel =>
    exact .inr ⟨_, rfl, rfl, fun _ => .added _ _ _ _ _ _ _ htypes hfits model hmodel⟩

/-- Of two pairs that find all they ask for in place, either may come first. -/
theorem PairStep.swap {pair' : AccessorPair} {ps ps' qs : List Property}
    (hne : pair.property ≠ pair'.property) (h : S.PairStep types ps pair v v ps')
    (h' : S.PairStep types ps' pair' v v qs) :
    ∃ qs', S.PairStep types ps pair' v v qs' ∧ S.PairStep types qs' pair v v qs := by
  rcases h'.made with ⟨rfl, hmakes'⟩ | ⟨p', hp', rfl, hmakes'⟩
  · exact ⟨ps, hmakes' ps, h⟩
  · refine ⟨insertProperty p' ps, hmakes' ps, ?_⟩
    rcases h.made with ⟨rfl, hmakes⟩ | ⟨p, hp, rfl, hmakes⟩
    · exact hmakes _
    · rw [insertProperty_comm (by rwa [hp, hp', ne_comm])]
      exact hmakes _

end Pairs

/-- A holder makes at the end what it made before. -/
theorem holderProperty_settle {f : Field} {ty : TypeExpr} {p : Property}
    (hp : holderProperty f ty r = .ok p r') (h : Toward v r) (hv : Toward v v) (he : Earlier r' v) :
    holderProperty f ty v = .ok p v := by
  obtain ⟨args, held, s, model, hargs, hheld, hmodel, rfl⟩ := holderProperty_eq_ok hp
  have hlast : s.Valid ∧ r.Grown s ∧ Resolved (depthLimit + 1) held := by
    cases ha : args.head? with
    | none =>
      simp only [ha] at hheld
      cases hheld
      exact ⟨h.stage.valid, Grown.refl _, Resolved.named depthLimit .object⟩
    | some arg =>
      simp only [ha] at hheld
      exact (resolve_keeps arg ty).of_ok h.stage.valid hheld
  obtain ⟨hvs, hgs, hres⟩ := hlast
  have hes := he.back hvs ((modelFor_keeps hres).of_ok hvs hmodel).2.1
  have hmodel' := (h.grow hgs hes).modelFor hv he hres hmodel
  have hargs' := (h.stage.anchored.within).collectParameters hargs
  unfold holderProperty
  rw [bind_of_ok (get_apply v), hargs', bind_of_ok (ofExcept_ok args v)]
  cases ha : args.head? with
  | none =>
    simp only [ha] at hheld ⊢
    cases hheld
    exact bind_of_ok hmodel'
  | some arg =>
    simp only [ha] at hheld ⊢
    rw [bind_of_ok (hes.resolve hheld), bind_of_ok hmodel']
    rfl

/-- A field makes at the end what it made before. -/
theorem FieldStep.settle {f : Field} {ty : TypeExpr} {r₁ : Registry} {p? : Option Property}
    (hstep : S.FieldStep f r r' ty r₁ p?) (h₁ : Toward v r₁) (hv : Toward v v) (he : Earlier r' v)
    (hres : Resolved (depthLimit + 1) ty) (hgrounded : Grounded v.classes r₁.classes ty) :
    S.FieldStep f v v ty v p? := by
  have hassign := h₁.stage.anchored.isAssignable (hgrounded.rawClass hres) .holder
  cases hstep with
  | held hheld p hp => exact .held (hassign.trans hheld) p (holderProperty_settle hp h₁ hv he)
  | skipped hheld model r₂ hmodel hskip hlast =>
    have he₂ := he.back ((modelFor_keeps hres).of_ok h₁.stage.valid hmodel).1 hlast
    exact .skipped (hassign ▸ hheld) model v (h₁.modelFor hv he₂ hres hmodel) hskip (Grown.refl v)
  | slotted hheld model hmodel hkept =>
    exact .slotted (hassign ▸ hheld) model (h₁.modelFor hv he hres hmodel) hkept

theorem FieldStep.grown {f : Field} {ty : TypeExpr} {r₁ : Registry} {p? : Option Property}
    (hstep : S.FieldStep f r r' ty r₁ p?) (hv : r₁.Valid) (hres : Resolved (depthLimit + 1) ty) :
    r₁.Grown r' := by
  cases hstep with
  | held hheld p hp => exact ((holderProperty_keeps f ty).of_ok hv hp).2.1
  | skipped hheld model r₂ hmodel hskip hlast =>
    exact ((modelFor_keeps hres).of_ok hv hmodel).2.1.trans hlast
  | slotted hheld model hmodel hkept => exact ((modelFor_keeps hres).of_ok hv hmodel).2.1

/-- What a field makes of the properties `ps` at `v`: it is passed over, or the property it has is added. -/
inductive FieldAdded (S : Scan) (v : Registry) (ps : List Property) (f : Field) : List Property → Prop
  | passed (h : (f.modifiers.isNative || hasProperty ps f.name || !S.isVisible f) = true) :
      FieldAdded S v ps f ps
  | without (h : (f.modifiers.isNative || hasProperty ps f.name || !S.isVisible f) = false) (ty : TypeExpr)
      (hty : S.resolve f.type v = .ok ty v) (hstep : S.FieldStep f v v ty v none) : FieldAdded S v ps f ps
  | added (h : (f.modifiers.isNative || hasProperty ps f.name || !S.isVisible f) = false) (ty : TypeExpr)
      (hty : S.resolve f.type v = .ok ty v) (p : Property) (hstep : S.FieldStep f v v ty v (some p)) :
      FieldAdded S v ps f (insertProperty p ps)

theorem addField_settle {ps qs : List Property} {f : Field} (hadd : S.addField ps f r = .ok qs r')
    (h : Toward v r) (hv : Toward v v) (he : Earlier r' v) (hsite : Grounded v.classes r.classes S.site)
    (hf : Grounded v.classes r.classes f.type) : S.FieldAdded v ps f qs := by
  unfold addField at hadd
  split at hadd
  · next hpass =>
    cases hadd
    exact .passed hpass
  · next hseen =>
    obtain ⟨p?, r₂, hp, hlast⟩ := bind_eq_ok_iff.1 hadd
    obtain ⟨ty, r₁, hty, hstep⟩ := fieldProperty?_step hp
    obtain ⟨hv₁, hg₁, hres⟩ := (resolve_keeps f.type S.site).of_ok h.stage.valid hty
    have he₂ : Earlier r₂ v := by
      cases p? with
      | none => cases hlast; exact he
      | some p => cases hlast; exact he
    have he₁ := he₂.back hv₁ (hstep.grown hv₁ hres)
    have hgrounded := resolve_grounded h.stage hf hsite hty he₁.classes
    have hstep' := hstep.settle (h.grow hg₁ he₁) hv he₂ hres hgrounded
    cases p? with
    | none => cases hlast; exact .without (by simpa using hseen) ty (he₁.resolve hty) hstep'
    | some p => cases hlast; exact .added (by simpa using hseen) ty (he₁.resolve hty) p hstep'

/-! ## Whole scans -/

/-- The scan read off the registry `v`: the accessor pairs give the properties `mid`, and the fields make them
the properties `ps`. -/
structure Settled (S : Scan) (v : Registry) (types chain : List Class) (mid ps : List Property) : Prop where
  supertypes : v.classes.supertypes S.owner.id = .ok types
  pairs : Folds (fun ps pair qs => S.PairStep types ps pair v v qs)
    (accessorPairs (types.flatMap (·.accessors S.config))) [] mid
  superclasses : v.classes.superclassChain S.owner = .ok chain
  fields : Folds (S.FieldAdded v) (chain.flatMap Class.instanceFields) mid ps

/-- What the accessor pairs have added is read off the later registry. -/
theorem addAccessorPairs_settle {pairs : List AccessorPair} {mid : List Property}
    (hpairs : S.addAccessorPairs types pairs r = .ok mid r') (h : Toward v r) (hv : Toward v v)
    (he : Earlier r' v) (hsite : Grounded v.classes r.classes S.site)
    (hgetters : ∀ pair ∈ pairs, ∀ m ty, pair.getter = some m → m.returns = some ty →
      Grounded v.classes r.classes ty) :
    Folds (fun ps pair qs => S.PairStep types ps pair v v qs) pairs [] mid := by
  refine (Folds.of_foldlM (I := fun ps s => AllCached ps s ∧ s.Valid ∧ r.Grown s) (E := (Earlier · v))
    (fun pair _ ps s qs s' hI hstep => ?_) (fun pair hpair ps s qs s' hI hstep hes' => ?_)
    ⟨fun p hp => (by cases hp), h.stage.valid, Grown.refl r⟩ hpairs he).1
  · obtain ⟨hvs, hgs, hqs⟩ := (addAccessorPair_keeps types hI.1 pair).of_ok hI.2.1 hstep
    exact ⟨⟨hqs, hvs, hI.2.2.trans hgs⟩, fun hes' => hes'.back hI.2.1 hgs⟩
  · obtain ⟨hvs, hgs, -⟩ := (addAccessorPair_keeps types hI.1 pair).of_ok hI.2.1 hstep
    exact (addAccessorPair_step hstep).settle (h.grow hI.2.2 (hes'.back hI.2.1 hgs)) hv hes'
      (hsite.mono hI.2.2.within) fun m ty hm hty => (hgetters pair hpair m ty hm hty).mono hI.2.2.within

/-- What the fields have added to the properties is read off the later registry. -/
theorem addEach_settle {fields : List Field} {mid ps : List Property}
    (hfields : fields.foldlM S.addField mid r = .ok ps r') (hcached : AllCached mid r) (h : Toward v r)
    (hv : Toward v v) (he : Earlier r' v) (hsite : Grounded v.classes r.classes S.site)
    (hmentions : ∀ f ∈ fields, Grounded v.classes r.classes f.type) :
    Folds (S.FieldAdded v) fields mid ps := by
  refine (Folds.of_foldlM (I := fun ps s => AllCached ps s ∧ s.Valid ∧ r.Grown s) (E := (Earlier · v))
    (fun f _ ps s qs s' hI hstep => ?_) (fun f hf ps s qs s' hI hstep hes' => ?_)
    ⟨hcached, h.stage.valid, Grown.refl r⟩ hfields he).1
  · obtain ⟨hvs, hgs, hqs⟩ := (addField_keeps hI.1 f).of_ok hI.2.1 hstep
    exact ⟨⟨hqs, hvs, hI.2.2.trans hgs⟩, fun hes' => hes'.back hI.2.1 hgs⟩
  · obtain ⟨hvs, hgs, -⟩ := (addField_keeps hI.1 f).of_ok hI.2.1 hstep
    exact addField_settle hstep (h.grow hI.2.2 (hes'.back hI.2.1 hgs)) hv hes'
      (hsite.mono hI.2.2.within) ((hmentions f hf).mono hI.2.2.within)

/-- What a scan has answered is read off every registry on the way to which it was made. There the pairs no
longer depend on each other, so that the order in which they were visited is not seen. -/
theorem run_settled {ps : List Property} (hrun : S.run r = .ok ps r') (h : Toward v r) (hv : Toward v v)
    (he : Earlier r' v) (howner : r.classes.find? S.owner.id = some S.owner)
    (hsite : Grounded v.classes r.classes S.site) : ∃ types chain mid, S.Settled v types chain mid ps := by
  obtain ⟨types, mid, r₁, r₂, htypes, hpairs, hfields, hlast⟩ := run_eq_ok hrun
  obtain ⟨hv₁, hg₁, hcached⟩ := (addAccessorPairs_keeps types _).of_ok h.stage.valid hpairs
  obtain ⟨hv₂, hg₂, -⟩ := (addFields_keeps hcached).of_ok hv₁ hfields
  have he₂ := he.back hv₂ hlast
  have he₁ := he₂.back hv₁ hg₂
  have h₁ := h.grow hg₁ he₁
  obtain ⟨chain, hchain, hfold⟩ := addFields_eq_ok hfields
  have hvisited := addAccessorPairs_settle hpairs h hv he₁ hsite fun pair hpair m ty hm hty => by
    obtain ⟨c, hc, hmem⟩ := accessorPairs_declared (r.order.mem_arrange.1 hpair) (.inl hm)
    exact h.stage.anchored.mentions c.id c (found_of_supertypes htypes c hc) ty (Class.mentions_result hmem hty)
  have hadded := addEach_settle hfold hcached h₁ hv he₂ (hsite.mono hg₁.within) fun f hf => by
    obtain ⟨c, hc, hmem⟩ := List.mem_flatMap.1 hf
    have hfound := found_of_chainFrom (hg₁.within _ _ howner) hchain c hc
    exact h₁.stage.anchored.mentions c.id c hfound f.type (Class.mentions_field (List.mem_filter.1 hmem).1)
  have hdistinct := List.pairwise_map.1 (arrange_nodup r.order (types.flatMap (·.accessors S.config)))
  have howner' := h.stage.anchored.within _ _ howner
  exact ⟨types, chain, mid, h.stage.anchored.within.supertypes htypes,
    hvisited.perm Ne.symm PairStep.swap (r.order.perm _) hdistinct,
    superclassChain_of_chainFrom howner' (h₁.stage.anchored.within.chainFrom (Nat.le_refl _) hchain), hadded⟩

end Scan

/-- The properties that a model got in a quiet stretch are those of a scan that is read off the last registry. -/
theorem settled_of_quiet {s : Store} {ops : List Operation} {m : Model} {k : Contents}
    (hv : s.registry.Valid) (hops : ∀ op ∈ ops, op.Quiet s.registry.config.privateAccessors)
    (hanchored : Anchored (s.run ops).registry.classes s.registry.classes)
    (hm : m ∈ (s.run ops).registry.models) (hk : (s.run ops).registry.contents? m = some k)
    (hnew : s.registry.contents? m = none) (hkind : m.kind = .object ∨ m.kind = .generic)
    (hargs : ∀ arg ∈ m.key.args, Grounded (s.run ops).registry.classes s.registry.classes arg) :
    ∃ config types chain mid, config.privateAccessors = s.registry.config.privateAccessors ∧
      Scan.Settled ⟨m.cls, m.type, config⟩ (s.run ops).registry types chain mid k.properties := by
  obtain ⟨hv', hlater⟩ := run_later hv ops
  obtain ⟨hcalm, hbuilt⟩ := run_quiet hv hops
  generalize (s.run ops).registry = v at *
  rcases hbuilt m.id k hk with hold | ⟨n, x, x', hn, hid, hvx, hmodels, hbuild, hx', hcalm'⟩
  · exact nomatch hold.symm.trans hnew
  obtain rfl := hv'.eq_of_id (hmodels.subset hn) hm hid
  have hsx := hcalm' rfl
  have hentry := hvx.entry n hn
  obtain ⟨-, hgrown, -⟩ := (Model.build_keeps hentry.resolved).of_ok hvx hbuild
  have htoward : Toward v x :=
    ⟨⟨hvx, hanchored.extend hsx.classes (Within.trans _ _ _ hgrown.within hx'.classes)⟩, hmodels,
      hsx.codecs.trans hcalm.codecs.symm⟩
  obtain ⟨r₁, r₂, hv₁, hg₁, hrun, hlast⟩ := Model.build_scanned hvx hentry.resolved hkind hbuild
  obtain ⟨hv₂, hg₂, -⟩ := Scan.run_keeps.of_ok hv₁ hrun
  have he₂ := hx'.back hv₂ hlast
  have hsite : Grounded v.classes x.classes n.type :=
    type_grounded hentry fun arg harg => (hargs arg harg).mono hsx.classes.within
  have hobject : v.classes.contains .object = true := hanchored.within.contains hanchored.object
  have howner : x.classes.find? n.cls.id = some n.cls := by
    rw [find?_id hentry.cls]
    exact hentry.cls
  obtain ⟨types, chain, mid, hsettled⟩ :=
    Scan.run_settled hrun (htoward.grow hg₁ (he₂.back hv₁ hg₂)) (Toward.refl hv' hobject) he₂
      (hg₁.within _ _ howner) (hsite.mono hg₁.within)
  exact ⟨x.config, types, chain, mid, hsx.accessors, hsettled⟩

end Introspect
