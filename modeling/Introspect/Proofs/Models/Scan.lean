import Introspect.Proofs.Classes.Assignability
import Introspect.Proofs.Models.Requests
import Introspect.Proofs.Models.Runs

/-!
What a scan answers.

* `insertProperty_ordered`, `find?_of_ordered`: the properties are in order, so a name finds its property.
* `insertProperty_comm`: it does not matter which of two properties is added first.
* `Scan.run_eq_ok`, `Model.build_scanned`: the parts of a scan that answered.
* `Scan.run_sourced`: every property comes from an accessor pair or a field.
* `Scan.run_pair`: an accessor pair of one type has a property, with the model of that type.
* `ModelOf.scanned`, `ModelOf.sourced`: the properties of a model of a reachable registry.
-/

namespace Introspect

open Registry ClassTable TypeExpr

theorem nodup_eraseDups {α : Type} [DecidableEq α] (as : List α) : as.eraseDups.Nodup := by
  cases as with
  | nil => simp
  | cons a as =>
    rw [List.eraseDups_cons, List.nodup_cons]
    constructor
    · simp [List.mem_eraseDups]
    · exact nodup_eraseDups _
termination_by as.length
decreasing_by
  have hle := List.length_filter_le (fun b => !b == a) as
  simp only [List.length_cons]
  omega

/-! ## Collected properties -/

theorem mem_insertProperty_of_mem {p q : Property} {ps : List Property} (h : q ∈ ps) :
    q ∈ insertProperty p ps := by
  induction ps with
  | nil => cases h
  | cons a as ih =>
    unfold insertProperty
    split
    · exact List.mem_cons_of_mem _ h
    · split
      · exact h
      · rcases List.mem_cons.1 h with rfl | h
        · exact List.mem_cons_self
        · exact List.mem_cons_of_mem _ (ih h)

theorem mem_insertProperty_self {p : Property} {ps : List Property}
    (h : ∀ q ∈ ps, q.name ≠ p.name) : p ∈ insertProperty p ps := by
  induction ps with
  | nil => exact List.mem_singleton_self p
  | cons a as ih =>
    unfold insertProperty
    split
    · exact List.mem_cons_self
    · split
      · next heq => exact absurd heq.symm (h a List.mem_cons_self)
      · exact List.mem_cons_of_mem _ (ih fun q hq => h q (List.mem_cons_of_mem _ hq))

theorem name_mem_insertProperty (p : Property) (ps : List Property) :
    ∃ q ∈ insertProperty p ps, q.name = p.name := by
  by_cases h : ∃ q ∈ ps, q.name = p.name
  · obtain ⟨q, hq, hname⟩ := h
    exact ⟨q, mem_insertProperty_of_mem hq, hname⟩
  · exact ⟨p, mem_insertProperty_self fun q hq hname => h ⟨q, hq, hname⟩, rfl⟩

theorem insertProperty_filter {keep : Property → Bool} {p : Property} (hp : keep p = false)
    (ps : List Property) : (insertProperty p ps).filter keep = ps.filter keep := by
  induction ps with
  | nil => simp [insertProperty, hp]
  | cons q qs ih =>
    unfold insertProperty
    split
    · rw [List.filter_cons_of_neg (by simp [hp])]
    · split
      · rfl
      · rw [List.filter_cons, List.filter_cons, ih]

/-- Properties of different names may be added in either order. -/
theorem insertProperty_comm {p q : Property} (h : p.name ≠ q.name) (ps : List Property) :
    insertProperty p (insertProperty q ps) = insertProperty q (insertProperty p ps) := by
  induction ps with
  | nil => grind [insertProperty]
  | cons a as ih => grind [insertProperty]

/-- In order of their names, no name twice. -/
def Ordered (ps : List Property) : Prop := ps.Pairwise fun p q => p.name < q.name

theorem insertProperty_ordered {p : Property} {ps : List Property} (h : Ordered ps) :
    Ordered (insertProperty p ps) := by
  induction ps with
  | nil => exact List.pairwise_singleton _ p
  | cons q qs ih =>
    obtain ⟨hq, hqs⟩ := List.pairwise_cons.1 h
    unfold insertProperty
    split
    · next hlt =>
      refine List.pairwise_cons.2 ⟨fun x hx => ?_, h⟩
      rcases List.mem_cons.1 hx with rfl | hx
      · exact hlt
      · exact String.lt_trans hlt (hq x hx)
    · next hnot =>
      split
      · exact h
      · next hne =>
        refine List.pairwise_cons.2 ⟨fun x hx => ?_, ih hqs⟩
        rcases mem_insertProperty hx with rfl | hx
        · exact Std.lt_of_le_of_ne (String.not_lt.1 hnot) (Ne.symm hne)
        · exact hq x hx

/-- A name finds the property that has it. -/
theorem find?_of_ordered {ps : List Property} (h : Ordered ps) {p : Property} (hp : p ∈ ps) :
    ps.find? (·.name = p.name) = some p := by
  induction ps with
  | nil => cases hp
  | cons q qs ih =>
    obtain ⟨hq, hqs⟩ := List.pairwise_cons.1 h
    rcases List.mem_cons.1 hp with rfl | hp
    · exact List.find?_cons_of_pos (by simp)
    · have hne : q.name ≠ p.name := fun heq => String.lt_irrefl _ (heq ▸ hq p hp)
      rw [List.find?_cons_of_neg (by simpa using hne)]
      exact ih hqs hp

namespace Scan

variable {S : Scan} {r r' : Registry}

/-! ## Parts of a scan -/

/-- The fields of the whole superclass chain are gone through. -/
theorem addFields_eq_ok {ps qs : List Property} (h : S.addFields ps r = .ok qs r') :
    ∃ chain, r.classes.superclassChain S.owner = .ok chain ∧
      (chain.flatMap Class.instanceFields).foldlM S.addField ps r = .ok qs r' := by
  unfold addFields at h
  obtain ⟨r₁, r₂, hget, h₁⟩ := bind_eq_ok_iff.1 h
  cases hget
  obtain ⟨qs', r₃, hfold, h₂⟩ := bind_eq_ok_iff.1 h₁
  obtain ⟨⟨⟩, r₄, hdiscard, h₃⟩ := bind_eq_ok_iff.1 h₂
  cases h₃
  cases hchain : r.classes.superclassChain S.owner with
  | error e => rw [hchain] at hdiscard; cases hdiscard
  | ok chain =>
    rw [hchain] at hdiscard
    cases hdiscard
    rw [ClassTable.chainWithin_eq_of_chainFrom hchain] at hfold
    exact ⟨chain, rfl, hfold⟩

/-- The accessor pairs of all supertypes, then the fields. -/
theorem runVia_eq_ok {arrange : List AccessorPair → List AccessorPair} {ps : List Property}
    (h : S.runVia arrange r = .ok ps r') :
    ∃ types ps₁ r₁ r₂, r.classes.supertypes S.owner.id = .ok types ∧
      S.addAccessorPairs types (arrange (accessorPairs (types.flatMap (·.accessors S.config)))) r =
        .ok ps₁ r₁ ∧
      S.addFields ps₁ r₁ = .ok ps r₂ ∧ r₂.Grown r' := by
  unfold runVia at h
  obtain ⟨r₀, s₀, hget, h₁⟩ := bind_eq_ok_iff.1 h
  cases hget
  obtain ⟨types, s₁, hsupers, h₂⟩ := bind_eq_ok_iff.1 h₁
  obtain ⟨htypes, rfl⟩ := ofExcept_eq_ok_iff.1 hsupers
  obtain ⟨ps₁, r₁, hpairs, h₃⟩ := bind_eq_ok_iff.1 h₂
  obtain ⟨ps₂, r₂, hfields, h₄⟩ := bind_eq_ok_iff.1 h₃
  split at h₄
  · obtain ⟨_, r₃, hlog, h₅⟩ := bind_eq_ok_iff.1 h₄
    cases hlog
    cases h₅
    exact ⟨types, ps₁, r₁, r₂, htypes, hpairs, hfields, Grown.logged _ _ _⟩
  · cases h₄
    exact ⟨types, ps₁, r₁, _, htypes, hpairs, hfields, Grown.refl _⟩

theorem run_eq_ok {ps : List Property} (h : S.run r = .ok ps r') :
    ∃ types ps₁ r₁ r₂, r.classes.supertypes S.owner.id = .ok types ∧
      S.addAccessorPairs types (r.order.arrange (accessorPairs (types.flatMap (·.accessors S.config)))) r =
        .ok ps₁ r₁ ∧
      S.addFields ps₁ r₁ = .ok ps r₂ ∧ r₂.Grown r' :=
  runVia_eq_ok h

/-! ## Steps -/

/-- What the accessors of a pair resolve to: `value` is what the getter gives, `taken` what the setter takes. -/
structure PairTypes (S : Scan) (pair : AccessorPair) (r r' : Registry) (getter setter : Method)
    (returns param value taken : TypeExpr) : Prop where
  hgetter : pair.getter = some getter
  hsetter : pair.setter = some setter
  hreturns : getter.returns = some returns
  hparam : setter.params.head? = some param
  hresolved : ∃ r₁, S.resolve returns r = .ok value r₁ ∧ S.resolve param r₁ = .ok taken r'

/-- What an accessor pair makes of the properties `ps`: it adds one, or leaves them alone for want of an
accessor, of a type, or because the setter refuses what the getter gives. -/
inductive PairStep (S : Scan) (types : List Class) (ps : List Property) (pair : AccessorPair)
    (r r' : Registry) : List Property → Prop
  | incomplete (h : pair.getter = none ∨ pair.setter = none) : PairStep S types ps pair r r' ps
  | typeless (getter setter : Method) (hgetter : pair.getter = some getter)
      (hsetter : pair.setter = some setter)
      (h : getter.returns = none ∨ setter.params.head? = none) : PairStep S types ps pair r r' ps
  | refused (getter setter : Method) (returns param value taken : TypeExpr) (r₁ : Registry)
      (htypes : S.PairTypes pair r r₁ getter setter returns param value taken)
      (h : ¬ r₁.classes.isAssignable taken.rawClass value.rawClass = true) (hlast : r₁.Grown r') :
      PairStep S types ps pair r r' ps
  | added (getter setter : Method) (returns param value taken : TypeExpr) (r₁ : Registry)
      (htypes : S.PairTypes pair r r₁ getter setter returns param value taken)
      (h : r₁.classes.isAssignable taken.rawClass value.rawClass = true) (model : Model)
      (hmodel : modelFor value r₁ = .ok model r') :
      PairStep S types ps pair r r' (insertProperty ⟨model, pair.property,
        isTransientIn types pair.property, .accessors (S.dispatch getter) (S.dispatch setter)⟩ ps)

theorem addAccessorPair_step {types : List Class} {ps qs : List Property} {pair : AccessorPair}
    (h : S.addAccessorPair types ps pair r = .ok qs r') : S.PairStep types ps pair r r' qs := by
  unfold addAccessorPair at h
  cases hg : pair.getter with
  | none =>
    simp only [hg] at h
    obtain ⟨_, r₁, -, h₁⟩ := bind_eq_ok_iff.1 h
    cases h₁
    exact .incomplete (.inl hg)
  | some getter =>
    cases hs : pair.setter with
    | none =>
      simp only [hg, hs] at h
      obtain ⟨_, r₁, -, h₁⟩ := bind_eq_ok_iff.1 h
      cases h₁
      exact .incomplete (.inr hs)
    | some setter =>
      simp only [hg, hs] at h
      cases hr : getter.returns with
      | none => simp only [hr] at h; cases h; exact .typeless getter setter hg hs (.inl hr)
      | some returns =>
        cases hp : setter.params.head? with
        | none => simp only [hr, hp] at h; cases h; exact .typeless getter setter hg hs (.inr hp)
        | some param =>
          simp only [hr, hp] at h
          obtain ⟨value, r₁, hvalue, h₁⟩ := bind_eq_ok_iff.1 h
          obtain ⟨taken, r₂, htaken, h₂⟩ := bind_eq_ok_iff.1 h₁
          obtain ⟨r₃, r₄, hget, h₃⟩ := bind_eq_ok_iff.1 h₂
          cases hget
          have htypes : S.PairTypes pair r r₂ getter setter returns param value taken :=
            ⟨hg, hs, hr, hp, r₁, hvalue, htaken⟩
          split at h₃
          · next hfits =>
            obtain ⟨model, r₅, hmodel, h₄⟩ := bind_eq_ok_iff.1 h₃
            cases h₄
            exact .added _ _ _ _ _ _ _ htypes hfits model hmodel
          · next hrefused =>
            obtain ⟨_, r₅, hlog, h₄⟩ := bind_eq_ok_iff.1 h₃
            cases hlog
            cases h₄
            exact .refused _ _ _ _ _ _ _ htypes hrefused (Grown.logged _ _ _)

/-- The property of a holder has the model of what is held: the first type argument, or any object. -/
theorem holderProperty_eq_ok {f : Field} {ty : TypeExpr} {p : Property}
    (h : holderProperty f ty r = .ok p r') :
    ∃ args held s model, r.classes.collectParameters ty .holder = .ok args ∧
      (match args.head? with
        | some arg => onTable (ClassTable.resolve arg ty)
        | none => pure .object : RegistryM TypeExpr) r = .ok held s ∧
      modelFor held s = .ok model r' ∧ p = ⟨model, f.name, f.isTransient, .holder f.name⟩ := by
  unfold holderProperty at h
  obtain ⟨r₁, r₂, hget, h₁⟩ := bind_eq_ok_iff.1 h
  cases hget
  obtain ⟨args, r₃, hargs, h₂⟩ := bind_eq_ok_iff.1 h₁
  obtain ⟨hargs, rfl⟩ := ofExcept_eq_ok_iff.1 hargs
  cases ha : args.head? with
  | none | some arg =>
    simp only [ha] at h₂
    obtain ⟨held, s, hheld, h₃⟩ := bind_eq_ok_iff.1 h₂
    obtain ⟨model, r₄, hmodel, h₄⟩ := bind_eq_ok_iff.1 h₃
    cases h₄
    exact ⟨args, held, s, model, hargs, by rw [ha]; exact hheld, hmodel, rfl⟩

/-- What is made of a field: the property of a holder, no property of a final atomic field outside records, or
the property of another slot. -/
inductive FieldStep (S : Scan) (f : Field) (r r' : Registry) (ty : TypeExpr) (r₁ : Registry) :
    Option Property → Prop
  | held (h : r₁.classes.isAssignable .holder ty.rawClass = true) (p : Property)
      (hp : holderProperty f ty r₁ = .ok p r') : FieldStep S f r r' ty r₁ (some p)
  | skipped (h : ¬ r₁.classes.isAssignable .holder ty.rawClass = true) (model : Model) (r₂ : Registry)
      (hmodel : modelFor ty r₁ = .ok model r₂)
      (hskip : model.isAtomic = true ∧ f.isFinal = true ∧ S.owner.isRecord = false)
      (hlast : r₂.Grown r') : FieldStep S f r r' ty r₁ none
  | slotted (h : ¬ r₁.classes.isAssignable .holder ty.rawClass = true) (model : Model)
      (hmodel : modelFor ty r₁ = .ok model r')
      (hkept : ¬(model.isAtomic = true ∧ f.isFinal = true ∧ S.owner.isRecord = false)) :
      FieldStep S f r r' ty r₁ (some ⟨model, f.name, f.isTransient, S.slotAccess f⟩)

theorem fieldProperty?_step {f : Field} {p? : Option Property}
    (h : S.fieldProperty? f r = .ok p? r') :
    ∃ ty r₁, S.resolve f.type r = .ok ty r₁ ∧ S.FieldStep f r r' ty r₁ p? := by
  unfold fieldProperty? at h
  obtain ⟨ty, r₁, hty, h₁⟩ := bind_eq_ok_iff.1 h
  obtain ⟨r₂, r₃, hget, h₂⟩ := bind_eq_ok_iff.1 h₁
  cases hget
  refine ⟨ty, r₁, hty, ?_⟩
  split at h₂
  · next hheld =>
    obtain ⟨p, r₃, hp, h₃⟩ := bind_eq_ok_iff.1 h₂
    cases h₃
    exact .held hheld p hp
  · next hheld =>
    obtain ⟨model, r₃, hmodel, h₃⟩ := bind_eq_ok_iff.1 h₂
    split at h₃
    · next hskip =>
      obtain ⟨_, r₄, hlog, h₄⟩ := bind_eq_ok_iff.1 h₃
      cases hlog
      cases h₄
      exact .skipped hheld model r₃ hmodel (by simpa [and_assoc] using hskip) (Grown.logged _ _ _)
    · next hkept =>
      cases h₃
      exact .slotted hheld model hmodel (by simpa [and_assoc] using hkept)

/-! ## Sources -/

/-- A property stands for an accessor pair, a field that holds a holder, or another field. -/
inductive Source (S : Scan) (pairs : List AccessorPair) (fields : List Field) (p : Property) :
    Prop where
  | accessors (pair : AccessorPair) (hpair : pair ∈ pairs) (hname : p.name = pair.property)
    (getter setter : Dispatch) (h : p.access = .accessors getter setter)
  | holder (f : Field) (hf : f ∈ fields) (hname : p.name = f.name) (h : p.access = .holder f.name)
  | field (f : Field) (hf : f ∈ fields) (hname : p.name = f.name) (h : p.access = S.slotAccess f)

/-- The properties are in order, and all have a source. -/
structure Sourced (S : Scan) (pairs : List AccessorPair) (fields : List Field)
    (ps : List Property) : Prop where
  ordered : Ordered ps
  source : ∀ p ∈ ps, S.Source pairs fields p

theorem Sourced.insert {pairs : List AccessorPair} {fields : List Field} {p : Property}
    {ps : List Property} (hps : S.Sourced pairs fields ps) (hp : S.Source pairs fields p) :
    S.Sourced pairs fields (insertProperty p ps) := by
  refine ⟨insertProperty_ordered hps.ordered, fun q hq => ?_⟩
  rcases mem_insertProperty hq with rfl | hq
  · exact hp
  · exact hps.source q hq

/-- Without fields all properties stand for pairs. -/
theorem Sourced.pair_of_mem {pairs : List AccessorPair} {ps : List Property}
    (hps : S.Sourced pairs [] ps) {p : Property} (hp : p ∈ ps) :
    ∃ pair ∈ pairs, p.name = pair.property := by
  cases hps.source p hp with
  | accessors pair hpair hname => exact ⟨pair, hpair, hname⟩
  | holder f hf => cases hf
  | field f hf => cases hf

/-- The step either leaves the properties alone or adds one that stands for the pair. -/
theorem addAccessorPair_eq_ok {types : List Class} {ps qs : List Property} {pair : AccessorPair}
    (h : S.addAccessorPair types ps pair r = .ok qs r') :
    qs = ps ∨ ∃ model getter setter, qs = insertProperty
      ⟨model, pair.property, isTransientIn types pair.property, .accessors getter setter⟩ ps := by
  cases addAccessorPair_step h with
  | incomplete | typeless | refused => exact .inl rfl
  | added getter setter _ _ _ _ _ _ _ model => exact .inr ⟨model, _, _, rfl⟩

theorem fieldProperty?_eq_ok {pairs : List AccessorPair} {fields : List Field} {f : Field}
    {p : Property} (hf : f ∈ fields) (h : S.fieldProperty? f r = .ok (some p) r') :
    S.Source pairs fields p := by
  obtain ⟨ty, r₁, -, hstep⟩ := fieldProperty?_step h
  cases hstep with
  | held _ _ hp =>
    obtain ⟨args, held, s, model, -, -, -, rfl⟩ := holderProperty_eq_ok hp
    exact .holder f hf rfl rfl
  | slotted => exact .field f hf rfl rfl

/-- A field leaves the properties alone or adds one that stands for it. -/
theorem addField_eq_ok (pairs : List AccessorPair) {fields : List Field} {ps qs : List Property}
    {f : Field} (hf : f ∈ fields) (h : S.addField ps f r = .ok qs r') :
    qs = ps ∨ ∃ p, S.Source pairs fields p ∧ qs = insertProperty p ps := by
  unfold addField at h
  split at h
  · cases h
    exact .inl rfl
  · obtain ⟨p?, r₁, hp, h₁⟩ := bind_eq_ok_iff.1 h
    cases p? with
    | none => cases h₁; exact .inl rfl
    | some p => cases h₁; exact .inr ⟨p, fieldProperty?_eq_ok hf hp, rfl⟩

theorem addAccessorPairs_sourced {types : List Class} {visited pairs : List AccessorPair}
    {ps : List Property} (h : S.addAccessorPairs types visited r = .ok ps r') (hvisited : visited ⊆ pairs)
    (fields : List Field) : S.Sourced pairs fields ps := by
  refine foldlM_induct (fun pair hpair qs s qs' s' hqs hstep => ?_)
    ⟨List.Pairwise.nil, List.forall_mem_nil _⟩ h
  rcases addAccessorPair_eq_ok hstep with rfl | ⟨model, getter, setter, rfl⟩
  · exact hqs
  · exact hqs.insert (.accessors pair (hvisited hpair) rfl getter setter rfl)

/-- Every property of a scan stands for an accessor pair of a supertype or a field of a superclass. -/
theorem run_sourced {ps : List Property} (hv : r.Valid) (h : S.run r = .ok ps r') :
    ∃ types chain n, r.classes.supertypes S.owner.id = .ok types ∧
      r'.classes.chainFrom n S.owner = .ok chain ∧
      S.Sourced (accessorPairs (types.flatMap (·.accessors S.config)))
        (chain.flatMap Class.instanceFields) ps := by
  obtain ⟨types, ps₁, r₁, r₂, htypes, hpairs, hfields, hlast⟩ := run_eq_ok h
  obtain ⟨hv₁, -, hcached⟩ := (addAccessorPairs_keeps types _).of_ok hv hpairs
  obtain ⟨chain, hchain, hfold⟩ := addFields_eq_ok hfields
  have hwithin := ((addFields_keeps hcached).of_ok hv₁ hfields).2.1.trans hlast
  refine ⟨types, chain, _, htypes, Within.chainFrom hwithin.within (Nat.le_refl _) hchain, ?_⟩
  refine foldlM_induct (fun f hf qs s qs' s' hqs hstep => ?_)
    (addAccessorPairs_sourced hpairs (fun _ => r.order.mem_arrange.1) _) hfold
  rcases addField_eq_ok _ hf hstep with rfl | ⟨p, hp, rfl⟩
  · exact hqs
  · exact hqs.insert hp

/-! ## Accessor pairs of one type -/

/-- What is collected stays when other pairs are added. -/
theorem mem_of_pairs {types : List Class} {pairs : List AccessorPair} {ps qs : List Property}
    {p : Property} (hp : p ∈ ps) (h : pairs.foldlM (S.addAccessorPair types) ps r = .ok qs r') :
    p ∈ qs := by
  refine foldlM_induct (P := (p ∈ ·)) (fun pair _ qs₁ s₁ qs₂ s₂ hqs hstep => ?_) hp h
  rcases addAccessorPair_eq_ok hstep with rfl | ⟨model, getter, setter, rfl⟩
  · exact hqs
  · exact mem_insertProperty_of_mem hqs

/-- What is collected stays when fields are added. -/
theorem mem_of_fields {ps qs : List Property} {p : Property} (hp : p ∈ ps)
    (h : S.addFields ps r = .ok qs r') : p ∈ qs := by
  obtain ⟨chain, -, hfold⟩ := addFields_eq_ok h
  refine foldlM_induct (P := (p ∈ ·)) (fun f hf qs₁ s₁ qs₂ s₂ hqs hstep => ?_) hp hfold
  rcases addField_eq_ok [] hf hstep with rfl | ⟨q, -, rfl⟩
  · exact hqs
  · exact mem_insertProperty_of_mem hqs

/-- A search for the type answered the model, at an earlier stage. -/
def AnsweredFor (m : Model) (ty : TypeExpr) (r : Registry) : Prop :=
  ∃ r₁ r₂, r₁.Valid ∧ modelFor ty r₁ = .ok m r₂ ∧ Earlier r₂ r

theorem AnsweredFor.later {m : Model} {ty : TypeExpr} {r s : Registry} (h : AnsweredFor m ty r)
    (hclasses : r.classes.Within s.classes) (hmodels : r.models <+: s.models) :
    AnsweredFor m ty s := by
  obtain ⟨r₁, r₂, hv, hm, hr⟩ := h
  exact ⟨r₁, r₂, hv, hm, hr.later hclasses hmodels⟩

/-- Accessors of one type: what the setter takes is what the getter gives. -/
theorem PairTypes.same {pair : AccessorPair} {getter setter getter' setter' : Method}
    {ty returns param value taken : TypeExpr} (hv : r.Valid)
    (h : S.PairTypes pair r r' getter' setter' returns param value taken)
    (hg : pair.getter = some getter) (hs : pair.setter = some setter)
    (hreturns : getter.returns = some ty) (hparam : setter.params.head? = some ty) :
    value = taken ∧ r'.Valid ∧ Resolved (depthLimit + 1) value ∧
      ClassTable.resolve ty S.site r'.classes = .ok value r'.classes := by
  cases hg.symm.trans h.hgetter
  cases hs.symm.trans h.hsetter
  cases hreturns.symm.trans h.hreturns
  cases hparam.symm.trans h.hparam
  obtain ⟨r₁, hvalue, htaken⟩ := h.hresolved
  obtain ⟨hv₁, -, hresolved⟩ := (resolve_keeps ty S.site).of_ok hv hvalue
  obtain ⟨t, ht, rfl⟩ := onTable_eq_ok hvalue
  have hagain := resolve_replays ty S.site _ _ _ t ht (Within.refl t)
  -- the parameter is the same type, and has been resolved before
  obtain ⟨t', ht', rfl⟩ := onTable_eq_ok htaken
  rw [hagain] at ht'
  cases ht'
  exact ⟨rfl, hv₁, hresolved, hagain⟩

/-- What the getter gives the setter takes, so there is a property. -/
theorem addAccessorPair_of_pair {types : List Class} {ps qs : List Property}
    {pair : AccessorPair} {getter setter : Method} {ty : TypeExpr} (hv : r.Valid)
    (hg : pair.getter = some getter) (hs : pair.setter = some setter)
    (hreturns : getter.returns = some ty) (hparam : setter.params.head? = some ty)
    (h : S.addAccessorPair types ps pair r = .ok qs r') :
    ∃ p value, qs = insertProperty p ps ∧ p.name = pair.property ∧
      p.isTransient = isTransientIn types pair.property ∧
      p.access = .accessors (S.dispatch getter) (S.dispatch setter) ∧
      ClassTable.resolve ty S.site r'.classes = .ok value r'.classes ∧
      AnsweredFor p.model value r' := by
  cases addAccessorPair_step h with
  | incomplete hnone => rw [hg, hs] at hnone; rcases hnone with hnone | hnone <;> cases hnone
  | typeless getter' setter' hg' hs' hnone =>
    cases hg.symm.trans hg'
    cases hs.symm.trans hs'
    rw [hreturns, hparam] at hnone
    rcases hnone with hnone | hnone <;> cases hnone
  | refused getter' setter' returns param value taken r₁ htypes hrefused =>
    obtain rfl : value = taken := (htypes.same hv hg hs hreturns hparam).1
    exact absurd (by simp [isAssignable]) hrefused
  | added getter' setter' returns param value taken r₁ htypes _ model hmodel =>
    cases hg.symm.trans htypes.hgetter
    cases hs.symm.trans htypes.hsetter
    obtain ⟨-, hv₁, hresolved, hvalue⟩ := htypes.same hv hg hs hreturns hparam
    obtain ⟨hv₂, hgrown, -⟩ := (modelFor_keeps hresolved).of_ok hv₁ hmodel
    exact ⟨_, value, rfl, rfl, rfl, rfl, resolve_replays ty S.site _ _ _ _ hvalue hgrown.within,
      _, _, hv₁, hmodel, hv₂, Within.refl _, List.prefix_refl _⟩

/-- Pairs of one list have different property names. -/
theorem accessorPairs_nodup (as : List Accessor) :
    ((accessorPairs as).map (·.property)).Nodup := by
  unfold accessorPairs
  rw [List.map_map]
  show ((as.map (·.property)).eraseDups.map id).Nodup
  rw [List.map_id]
  exact nodup_eraseDups _

/-- In every order no pair has the property name of another one. -/
theorem arrange_nodup (order : VisitOrder) (as : List Accessor) :
    ((order.arrange (accessorPairs as)).map (·.property)).Nodup :=
  ((order.perm _).map _).nodup_iff.2 (accessorPairs_nodup as)

/-- The property of an accessor pair is among those of the scan: no other pair has its name, and what is
collected stays. -/
theorem run_pair {types : List Class} {ps : List Property} {pair : AccessorPair}
    {getter setter : Method} {ty : TypeExpr} (hv : r.Valid)
    (htypes : r.classes.supertypes S.owner.id = .ok types)
    (hpair : pair ∈ accessorPairs (types.flatMap (·.accessors S.config)))
    (hg : pair.getter = some getter) (hs : pair.setter = some setter)
    (hreturns : getter.returns = some ty) (hparam : setter.params.head? = some ty)
    (h : S.run r = .ok ps r') :
    ∃ p ∈ ps, ∃ value, p.name = pair.property ∧
      p.isTransient = isTransientIn types pair.property ∧
      p.access = .accessors (S.dispatch getter) (S.dispatch setter) ∧
      ClassTable.resolve ty S.site r'.classes = .ok value r'.classes ∧
      AnsweredFor p.model value r' := by
  obtain ⟨types', ps₃, r₃, r₄, htypes', hpairs, hfields, hlast⟩ := run_eq_ok h
  rw [htypes] at htypes'
  cases htypes'
  obtain ⟨hv₃, -, hcached⟩ := (addAccessorPairs_keeps types _).of_ok hv hpairs
  have hrest : r₃.Grown r' := ((addFields_keeps hcached).of_ok hv₃ hfields).2.1.trans hlast
  -- the pairs that are visited before it, the pair, and those behind it
  obtain ⟨before, behind, hsplit⟩ := List.append_of_mem (r.order.mem_arrange.2 hpair)
  have hnames := arrange_nodup r.order (types.flatMap (·.accessors S.config))
  rw [hsplit] at hnames
  unfold addAccessorPairs at hpairs
  rw [hsplit] at hpairs
  obtain ⟨ps₁, r₁, hbefore, hpairs₁⟩ := foldlM_append_eq_ok.1 hpairs
  obtain ⟨ps₂, r₂, hstep, hbehind⟩ := foldlM_cons_eq_ok.1 hpairs₁
  obtain ⟨hv₁, -, hcached₁⟩ := (addAccessorPairs_keeps types before).of_ok hv hbefore
  obtain ⟨hv₂, -, hcached₂⟩ := (addAccessorPair_keeps types hcached₁ pair).of_ok hv₁ hstep
  have hloop : Keeps r₂ (behind.foldlM (S.addAccessorPair types) ps₂) AllCached :=
    Keeps.foldlM (fun qs s pair' _ _ hqs => addAccessorPair_keeps types hqs pair')
      (fun _ _ _ hs hqs => hqs.grown hs) hcached₂
  have hgrown : r₂.Grown r' := (hloop.of_ok hv₂ hbehind).2.1.trans hrest
  obtain ⟨p, value, rfl, hname, htransient, haccess, hvalue, hmodel⟩ :=
    addAccessorPair_of_pair hv₁ hg hs hreturns hparam hstep
  -- a property of the name would stand for another pair of that name
  have hfree : ∀ q ∈ ps₁, q.name ≠ p.name := by
    intro q hq heq
    obtain ⟨pair', hpair', hq'⟩ := (addAccessorPairs_sourced hbefore (List.Subset.refl _) []).pair_of_mem hq
    rw [List.map_append, List.nodup_append] at hnames
    exact hnames.2.2 _ (List.mem_map_of_mem hpair') _ (List.mem_map_of_mem List.mem_cons_self)
      (hq'.symm.trans (heq.trans hname))
  have hmem : p ∈ ps := mem_of_fields (mem_of_pairs (mem_insertProperty_self hfree) hbehind) hfields
  exact ⟨p, hmem, value, hname, htransient, haccess,
    resolve_replays ty S.site _ _ _ _ hvalue hgrown.within, hmodel.later hgrown.within hgrown.models⟩

end Scan

/-! ## Contents -/

namespace Model

variable {m : Model} {k : Contents} {r r' : Registry}

theorem build_eq_ok (h : m.build r = .ok k r') :
    ∃ r₁, m.assemble r = .ok k r₁ ∧ r₁.Grown r' := by
  unfold build at h
  obtain ⟨_, r₀, hlive, h₁⟩ := bind_eq_ok_iff.1 h
  cases requireLive_eq_ok hlive
  obtain ⟨c, r₁, hc, h₂⟩ := bind_eq_ok_iff.1 h₁
  obtain ⟨t, r₂, hget, h₃⟩ := bind_eq_ok_iff.1 h₂
  cases hget
  split at h₃
  · obtain ⟨_, r₃, hlog, h₄⟩ := bind_eq_ok_iff.1 h₃
    cases hlog
    cases h₄
    exact ⟨r₁, hc, Grown.logged _ _ _⟩
  · cases h₃
    exact ⟨_, hc, Grown.refl _⟩

theorem scan_eq_ok {owner : Class} {site : TypeExpr} {ps : List Property}
    (h : scan owner site r = .ok ps r') : Scan.run ⟨owner, site, r.config⟩ r = .ok ps r' := by
  unfold scan at h
  obtain ⟨t, r₁, hget, h₁⟩ := bind_eq_ok_iff.1 h
  cases hget
  exact h₁

/-- What an object or generic model asks for before its scan: the models of its type arguments. -/
def argumentModels (m : Model) : RegistryM (List Model) :=
  if m.kind = .generic then m.typeArguments.mapM modelFor else pure []

/-- The properties of an object or generic model are those of the scan that follows. -/
theorem build_scan (hkind : m.kind = .object ∨ m.kind = .generic) (h : m.build r = .ok k r') :
    ∃ parameters r₁ r₂, m.argumentModels r = .ok parameters r₁ ∧
      Scan.run ⟨m.cls, m.type, r₁.config⟩ r₁ = .ok k.properties r₂ ∧ r₂.Grown r' := by
  obtain ⟨r₃, h₁, hlast⟩ := build_eq_ok h
  unfold assemble at h₁
  unfold argumentModels
  rcases hkind with hkind | hkind
  · simp only [hkind] at h₁
    obtain ⟨ps, r₂, hps, h₂⟩ := bind_eq_ok_iff.1 h₁
    cases h₂
    exact ⟨[], r, r₃, by rw [hkind]; rfl, scan_eq_ok hps, hlast⟩
  · simp only [hkind] at h₁
    obtain ⟨parameters, r₁, hparameters, h₂⟩ := bind_eq_ok_iff.1 h₁
    obtain ⟨ps, r₂, hps, h₃⟩ := bind_eq_ok_iff.1 h₂
    cases h₃
    exact ⟨parameters, r₁, r₃, by rw [if_pos hkind]; exact hparameters, scan_eq_ok hps, hlast⟩

theorem argumentModels_keeps (hm : Resolved (depthLimit + 1) m.type) :
    Keeps r m.argumentModels fun _ _ => True := by
  unfold argumentModels
  split
  · exact Keeps.weaken (Keeps.mapM (fun ty hty => modelFor_keeps (typeArguments_resolved hm ty hty))
      fun _ _ _ hs hm => hm.grown hs) fun _ _ _ _ => trivial
  · exact Keeps.pure fun _ _ => trivial

/-- The properties of an object or generic model are those of a scan. -/
theorem build_scanned (hv : r.Valid) (hm : Resolved (depthLimit + 1) m.type)
    (hkind : m.kind = .object ∨ m.kind = .generic) (h : m.build r = .ok k r') :
    ∃ r₁ r₂, r₁.Valid ∧ r.Grown r₁ ∧
      Scan.run ⟨m.cls, m.type, r.config⟩ r₁ = .ok k.properties r₂ ∧ r₂.Grown r' := by
  obtain ⟨parameters, r₁, r₂, hparameters, hrun, hlast⟩ := build_scan hkind h
  obtain ⟨hv₁, hg₁, -⟩ := (argumentModels_keeps hm).of_ok hv hparameters
  exact ⟨r₁, r₂, hv₁, hg₁, hg₁.config ▸ hrun, hlast⟩

/-- A model of another kind has no properties. -/
theorem build_unscanned (hkind : ¬(m.kind = .object ∨ m.kind = .generic))
    (h : m.build r = .ok k r') : k.properties = [] := by
  obtain ⟨r₃, h₁, -⟩ := build_eq_ok h
  unfold assemble at h₁
  cases hk : m.kind with
  | object => exact absurd (.inl hk) hkind
  | generic => exact absurd (.inr hk) hkind
  | scalar =>
    simp only [hk] at h₁
    cases h₁
    rfl
  | list =>
    simp only [hk] at h₁
    obtain ⟨item, r₁, -, h₂⟩ := bind_eq_ok_iff.1 h₁
    obtain ⟨model, r₂, -, h₃⟩ := bind_eq_ok_iff.1 h₂
    cases h₃
    rfl
  | map =>
    simp only [hk] at h₁
    obtain ⟨key, r₁, -, h₂⟩ := bind_eq_ok_iff.1 h₁
    obtain ⟨value, r₂, -, h₃⟩ := bind_eq_ok_iff.1 h₂
    obtain ⟨keyModel, r₄, -, h₄⟩ := bind_eq_ok_iff.1 h₃
    obtain ⟨valueModel, r₅, -, h₅⟩ := bind_eq_ok_iff.1 h₄
    cases h₅
    rfl
  | array =>
    simp only [hk] at h₁
    obtain ⟨component, r₁, -, h₂⟩ := bind_eq_ok_iff.1 h₁
    obtain ⟨model, r₂, -, h₃⟩ := bind_eq_ok_iff.1 h₂
    cases h₃
    rfl

end Model

/-! ## Models of a class -/

/-- A model of the class, with its contents. -/
structure ModelOf (r : Registry) (c : Class) (m : Model) (k : Contents) : Prop where
  declared : r.classes.find? c.id = some c
  model : m ∈ r.models
  raw : m.raw = c.id
  contents : r.contents? m = some k

namespace ModelOf

variable {config : Config} {ops : List Operation} {c : Class} {m : Model} {k : Contents}

theorem of_place {r : Registry} {place : Nat} (hc : r.classes.find? c.id = some c)
    (hm : r.models[place]?.isSome = true) (hraw : (r.models[place]?.getD default).raw = c.id)
    (hk : (r.contents? (r.models[place]?.getD default)).isSome = true) :
    ModelOf r c (r.models[place]?.getD default)
      ((r.contents? (r.models[place]?.getD default)).getD default) :=
  ⟨hc, Registry.model_mem hm, hraw, eq_some_getD hk⟩

theorem cls_eq {r : Registry} (h : ModelOf r c m k) (hv : r.Valid) : m.cls = c := by
  have hfound := (hv.entry m h.model).cls
  rw [show m.key.raw = c.id from h.raw, h.declared] at hfound
  exact (Option.some.inj hfound).symm

/-- The properties of an object or generic model are those of a scan at an earlier stage. -/
theorem scanned (h : ModelOf (reached config ops).registry c m k)
    (hkind : m.kind = .object ∨ m.kind = .generic) :
    ∃ config' r r', r.Valid ∧ r.classes.find? c.id = some c ∧
      Scan.run ⟨c, m.type, config'⟩ r = .ok k.properties r' ∧
      r.classes.Within (reached config ops).registry.classes ∧
      r'.classes.Within (reached config ops).registry.classes ∧
      r'.models <+: (reached config ops).registry.models := by
  obtain ⟨s, s', hin, hv, hbuild, hs'⟩ := reached_built h.model h.contents
  obtain ⟨r, r', hvr, hgrown, hrun, hlast⟩ :=
    Model.build_scanned hv (hv.entry m hin).resolved hkind hbuild
  have hcls := h.cls_eq (reached_valid config ops)
  have hbefore : s.classes.find? c.id = some c := by
    have hfound := (hv.entry m hin).cls
    rw [show m.key.raw = c.id from h.raw, hcls] at hfound
    exact hfound
  rw [hcls] at hrun
  have hwithin := Within.trans _ _ _ hlast.within hs'.classes
  have hrr' := (Scan.run_keeps.of_ok hvr hrun).2.1.within
  exact ⟨s.config, r, r', hvr, hgrown.within _ _ hbefore, hrun, Within.trans _ _ _ hrr' hwithin,
    hwithin, hlast.models.trans hs'.models⟩

theorem kind_of_property (h : ModelOf (reached config ops).registry c m k) {q : Property}
    (hq : q ∈ k.properties) : m.kind = .object ∨ m.kind = .generic := by
  obtain ⟨s, s', -, -, hbuild, -⟩ := reached_built h.model h.contents
  refine Classical.byContradiction fun hkind => ?_
  rw [Model.build_unscanned hkind hbuild] at hq
  cases hq

/-- A property stands for an accessor pair of the supertypes or a field of the superclass chain. -/
theorem sourced (h : ModelOf (reached config ops).registry c m k) {q : Property}
    (hq : q ∈ k.properties) :
    ∃ config' types chain, (reached config ops).registry.classes.supertypes c.id = .ok types ∧
      (reached config ops).registry.classes.superclassChain c = .ok chain ∧
      Scan.Source ⟨c, m.type, config'⟩ (accessorPairs (types.flatMap (·.accessors config')))
        (chain.flatMap Class.instanceFields) q := by
  obtain ⟨config', r, r', hv, -, hrun, hwithin, hwithin', -⟩ := h.scanned (h.kind_of_property hq)
  obtain ⟨types, chain, n, htypes, hchain, hsourced⟩ := Scan.run_sourced hv hrun
  exact ⟨config', types, chain, hwithin.supertypes htypes,
    superclassChain_of_chainFrom h.declared (Within.chainFrom hwithin' (Nat.le_refl n) hchain),
    hsourced.source q hq⟩

end ModelOf
end Introspect
