import Introspect.Classes.Declaration
import Introspect.Proofs.Models.Closed
import Introspect.Proofs.Models.Declarations
import Introspect.Proofs.Models.Likeness
import Introspect.Proofs.Models.Scan

/-!
What a scan collects, said without the scan.

The candidate names may be visited in any order. Over a closed table the properties of a class follow from its
supertypes, its superclass chain and what each single type resolves to.

* `Scan.Paired`: the first getter and the first setter of a name fit each other.
* `Scan.Eligible`: a field that has a property unless its name is taken.
* `Scan.Description`: the properties of a class by these two.
* `scan_described`: every order of visits gives them.
-/

namespace Introspect

open Registry ClassTable TypeExpr

namespace Scan

/-! ## The description -/

/-- The first accessor of a role for a property name, in the order of the classes. Closed classes and proxies
are left out, and so are methods that are no candidates. -/
def accessor? (S : Scan) (types : List Class) (role : AccessorRole) (name : String) : Option Method :=
  ((types.filter fun c => c.accessible && !c.proxy).flatMap (·.methods)).find? fun m =>
    isAccessorCandidate S.config m && m.accessor? = some (role, name)

/-- What the getter gives, of the resolved type `value`, the setter takes. -/
def Fits (S : Scan) (r : Registry) (getter setter : Method) (value : TypeExpr) : Prop :=
  ∃ returns param taken r₁ r₂, getter.returns = some returns ∧ setter.params.head? = some param ∧
    S.resolve returns r = .ok value r₁ ∧ S.resolve param r₁ = .ok taken r₂ ∧
    r₂.classes.isAssignable taken.rawClass value.rawClass = true

/-- The first getter and the first setter of the name fit. -/
def Paired (S : Scan) (r : Registry) (types : List Class) (name : String) : Prop :=
  ∃ getter setter value, S.accessor? types .getter name = some getter ∧
    S.accessor? types .setter name = some setter ∧ S.Fits r getter setter value

/-- The type of the field can be held, or it is not both atomic and final outside records. -/
def Admits (S : Scan) (r : Registry) (f : Field) : Prop :=
  ∃ ty r₁, S.resolve f.type r = .ok ty r₁ ∧
    (r₁.classes.isAssignable .holder ty.rawClass = true ∨
      ∃ m r₂, modelFor ty r₁ = .ok m r₂ ∧
        ¬(m.isAtomic = true ∧ f.isFinal = true ∧ S.owner.isRecord = false))

/-- A visible field that is not native, of a type that is admitted. -/
def Eligible (S : Scan) (r : Registry) (f : Field) : Prop :=
  f.modifiers.isNative = false ∧ S.isVisible f = true ∧ S.Admits r f

/-- The first eligible field of the name. -/
def FirstEligible (S : Scan) (r : Registry) (fields : List Field) (name : String) (f : Field) : Prop :=
  ∃ before rest, fields = before ++ f :: rest ∧ f.name = name ∧ S.Eligible r f ∧
    ∀ g ∈ before, g.name = name → ¬ S.Eligible r g

/-- The property of a pair that fits; its model is that of what the getter gives. -/
def PairProperty (S : Scan) (r r' : Registry) (types : List Class) (getter setter : Method)
    (p : Property) : Prop :=
  ∃ value, S.Fits r getter setter value ∧ modelFor value r' = .ok p.model r' ∧
    p.isTransient = isTransientIn types p.name ∧
    p.access = .accessors (S.dispatch getter) (S.dispatch setter)

/-- What a holder of the type holds. -/
def HeldType (t : ClassTable) (ty held : TypeExpr) : Prop :=
  ∃ args, t.collectParameters ty .holder = .ok args ∧
    match args.head? with
    | some arg => ClassTable.resolve arg ty t = .ok held t
    | none => held = .object

/-- The property of a field; its model is that of the field's type, or of what the field holds. -/
def FieldProperty (S : Scan) (r r' : Registry) (f : Field) (p : Property) : Prop :=
  p.isTransient = f.isTransient ∧ ∃ ty r₁, S.resolve f.type r = .ok ty r₁ ∧
    if r₁.classes.isAssignable .holder ty.rawClass = true then
      p.access = .holder f.name ∧
        ∃ held, HeldType r'.classes ty held ∧ modelFor held r' = .ok p.model r'
    else p.access = S.slotAccess f ∧ modelFor ty r' = .ok p.model r'

/-- The properties of the owner: one of each name whose accessors fit, and one of each other name of an eligible
field. What the types resolve to is asked of the registry `r` that the scan began in, the models are those of
the registry `r'` that it left. -/
structure Description (S : Scan) (r r' : Registry) (types chain : List Class) (ps : List Property) :
    Prop where
  ordered : Ordered ps
  names : ∀ name, (∃ p ∈ ps, p.name = name) ↔ S.Paired r types name ∨
    ¬ S.Paired r types name ∧ ∃ f ∈ chain.flatMap Class.instanceFields, f.name = name ∧ S.Eligible r f
  accessors : ∀ p ∈ ps, S.Paired r types p.name → ∃ getter setter,
    S.accessor? types .getter p.name = some getter ∧ S.accessor? types .setter p.name = some setter ∧
      S.PairProperty r r' types getter setter p
  fields : ∀ p ∈ ps, ¬ S.Paired r types p.name → ∃ f,
    S.FirstEligible r (chain.flatMap Class.instanceFields) p.name f ∧ S.FieldProperty r r' f p

/-! ## Accessors -/

/-- The accessor that a candidate is. -/
def accessorOf? (S : Scan) (m : Method) : Option Accessor :=
  if isAccessorCandidate S.config m then m.accessor?.map fun (role, name) => ⟨role, name, m⟩
  else none

theorem flatMap_accessors (S : Scan) (types : List Class) :
    types.flatMap (·.accessors S.config) =
      ((types.filter fun c => c.accessible && !c.proxy).flatMap (·.methods)).filterMap S.accessorOf? := by
  induction types with
  | nil => rfl
  | cons c types ih =>
    rw [List.flatMap_cons, ih, List.filter_cons]
    unfold Class.accessors
    split
    · rw [List.flatMap_cons, List.filterMap_append]
      rfl
    · rfl

theorem accessorOf?_any (S : Scan) (m : Method) (role : AccessorRole) (name : String) :
    (S.accessorOf? m).any (fun a => a.role = role && a.property = name) =
      (isAccessorCandidate S.config m && m.accessor? = some (role, name)) := by
  unfold accessorOf?
  cases isAccessorCandidate S.config m with
  | false => rfl
  | true =>
    rcases m.accessor? with _ | ⟨role', name'⟩
    · simp
    · simp

theorem firstAccessor?_eq (S : Scan) (types : List Class) (role : AccessorRole) (name : String) :
    firstAccessor? (types.flatMap (·.accessors S.config)) role name = S.accessor? types role name := by
  unfold firstAccessor? accessor?
  rw [flatMap_accessors, List.find?_filterMap]
  simp only [accessorOf?_any]
  generalize (types.filter fun c => c.accessible && !c.proxy).flatMap (·.methods) = methods
  cases hm : methods.find? fun m =>
      isAccessorCandidate S.config m && m.accessor? = some (role, name) with
  | none => rfl
  | some m =>
    have hp := List.find?_some hm
    simp only [Bool.and_eq_true, decide_eq_true_eq] at hp
    simp [accessorOf?, hp.1, hp.2]

theorem mem_accessorPairs {as : List Accessor} {pair : AccessorPair} :
    pair ∈ accessorPairs as ↔ (∃ a ∈ as, a.property = pair.property) ∧
      pair.getter = firstAccessor? as .getter pair.property ∧
      pair.setter = firstAccessor? as .setter pair.property := by
  unfold accessorPairs
  simp only [List.mem_map, List.mem_eraseDups]
  constructor
  · rintro ⟨name, ha, rfl⟩
    exact ⟨ha, rfl, rfl⟩
  · rintro ⟨ha, hg, hs⟩
    refine ⟨pair.property, ha, ?_⟩
    rw [← hg, ← hs]

/-- The pair of a name has the first getter and the first setter of that name. -/
theorem accessors_of_pair {S : Scan} {types : List Class} {pair : AccessorPair}
    (h : pair ∈ accessorPairs (types.flatMap (·.accessors S.config))) :
    pair.getter = S.accessor? types .getter pair.property ∧
      pair.setter = S.accessor? types .setter pair.property := by
  obtain ⟨-, hg, hs⟩ := mem_accessorPairs.1 h
  rw [firstAccessor?_eq] at hg hs
  exact ⟨hg, hs⟩

/-- A getter and a setter of one name make a pair. -/
theorem pair_of_accessors {S : Scan} {types : List Class} {name : String} {getter setter : Method}
    (hg : S.accessor? types .getter name = some getter)
    (hs : S.accessor? types .setter name = some setter) :
    ⟨name, some getter, some setter⟩ ∈ accessorPairs (types.flatMap (·.accessors S.config)) := by
  rw [← firstAccessor?_eq] at hg hs
  obtain ⟨a, ha, -⟩ := Option.map_eq_some_iff.1 hg
  have hp := List.find?_some ha
  simp only [Bool.and_eq_true, decide_eq_true_eq] at hp
  exact mem_accessorPairs.2 ⟨⟨a, List.mem_of_find?_eq_some ha, hp.2⟩, hg.symm, hs.symm⟩

/-! ## What a scan begins with -/

/-- The table is closed, the owner is declared, and so is every class that the site names. -/
structure Begins (S : Scan) (r : Registry) : Prop where
  valid : r.Valid
  base : r.classes.Sealed
  owner : r.classes.find? S.owner.id = some S.owner
  site : r.classes.Knows S.site

section Steps

variable {S : Scan} {r s w w' : Registry}

theorem Begins.kin (h : S.Begins r) (hw : w.Valid) (hg : r.Grown w) : Kin r r w :=
  ⟨h.base, Grown.refl r, h.valid, hg, hw⟩

/-- Where two resolutions of a type to the same answer end. -/
structure Resolves (r s w : Registry) (answer : TypeExpr) (s' w' : Registry) : Prop where
  kin : Kin r s' w'
  left : s.Grown s'
  right : w.Grown w'
  resolved : Resolved (depthLimit + 1) answer
  leftKnows : s'.classes.Knows answer
  rightKnows : w'.classes.Knows answer

/-- Beside the scan, a type resolves as in the scan. -/
theorem Begins.resolve (h : S.Begins r) (hkin : Kin r s w) {ty answer : TypeExpr}
    (hty : r.classes.Knows ty) (hw : S.resolve ty w = .ok answer w') :
    ∃ s', S.resolve ty s = .ok answer s' ∧ Resolves r s w answer s' w' := by
  have htys := hty.mono hkin.left.within
  have hsites := h.site.mono hkin.left.within
  obtain ⟨s', hs, hkin'⟩ := hkin.resolve htys hsites hw
  obtain ⟨-, hright, hres⟩ := (resolve_keeps ty S.site).of_ok hkin.rightValid hw
  obtain ⟨-, hleft, -⟩ := (resolve_keeps ty S.site).of_ok hkin.leftValid hs
  obtain ⟨t, ht, rfl⟩ := onTable_eq_ok hs
  obtain ⟨t', ht', rfl⟩ := onTable_eq_ok hw
  exact ⟨_, hs, hkin', hleft, hright, hres, hkin.table.sealed_left.resolved htys hsites ht,
    hkin.table.sealed_right.resolved (hty.mono hkin.right.within) (h.site.mono hkin.right.within) ht'⟩

/-- The class of the answer is assigned to the same classes at both ends, and later. -/
theorem Resolves.isAssignable {answer : TypeExpr} {s' s'' w'' : Registry}
    (h : Resolves r s w answer s' w') (hkin : Kin r s'' w'') (hs : s'.Grown s'') (hw : w'.Grown w'')
    (target : ClassId) :
    s''.classes.isAssignable target answer.rawClass =
      w''.classes.isAssignable target answer.rawClass :=
  hkin.table.isAssignable (hs.within.contains (h.leftKnows.rawClass h.resolved))
    (hw.within.contains (h.rightKnows.rawClass h.resolved)) target

/-- What is found for a type is found for it from then on. -/
theorem Begins.modelFor (h : S.Begins r) (hv : w.Valid) (hg : r.Grown w) {ty : TypeExpr} {m : Model}
    {q : Registry} (hty : Resolved (depthLimit + 1) ty) (hm : Registry.modelFor ty w = .ok m w')
    (hq : w'.Grown q) : Registry.modelFor ty q = .ok m q :=
  modelFor_again (h.base.extend hg.classes) hv hty hm hq

/-! ## One accessor pair -/

/-- Beside the scan, the types of a pair resolve as in the scan, and one is assigned to the other as in the
scan. -/
theorem Begins.pairTypes (h : S.Begins r) (hv : w.Valid) (hg : r.Grown w) {pair : AccessorPair}
    (hget : ∀ m ty, pair.getter = some m → m.returns = some ty → r.classes.Knows ty)
    (hset : ∀ m ty, pair.setter = some m → ty ∈ m.params → r.classes.Knows ty)
    {getter setter : Method} {returns param value taken : TypeExpr}
    (htypes : S.PairTypes pair w w' getter setter returns param value taken) :
    ∃ r₁ r₂, S.resolve returns r = .ok value r₁ ∧ S.resolve param r₁ = .ok taken r₂ ∧ Kin r r₂ w' ∧
      Resolved (depthLimit + 1) value ∧
      r₂.classes.isAssignable taken.rawClass value.rawClass =
        w'.classes.isAssignable taken.rawClass value.rawClass := by
  obtain ⟨w₁, hvalue, htaken⟩ := htypes.hresolved
  obtain ⟨r₁, hvalue', hres₁⟩ :=
    h.resolve (h.kin hv hg) (hget getter returns htypes.hgetter htypes.hreturns) hvalue
  obtain ⟨r₂, htaken', hres₂⟩ := h.resolve hres₁.kin
    (hset setter param htypes.hsetter (List.mem_of_mem_head? htypes.hparam)) htaken
  exact ⟨r₁, r₂, hvalue', htaken', hres₂.kin, hres₁.resolved,
    hres₁.isAssignable hres₂.kin hres₂.left hres₂.right taken.rawClass⟩

/-- A pair adds its property when it fits, and nothing otherwise. -/
theorem addAccessorPair_described (h : S.Begins r) (hv : w.Valid) (hg : r.Grown w)
    {types : List Class} {ps qs : List Property} {pair : AccessorPair}
    (hget : ∀ m ty, pair.getter = some m → m.returns = some ty → r.classes.Knows ty)
    (hset : ∀ m ty, pair.setter = some m → ty ∈ m.params → r.classes.Knows ty)
    (hstep : S.addAccessorPair types ps pair w = .ok qs w') :
    (∃ getter setter p, pair.getter = some getter ∧ pair.setter = some setter ∧
        p.name = pair.property ∧ S.PairProperty r w' types getter setter p ∧
        qs = insertProperty p ps) ∨
      (qs = ps ∧ ∀ getter setter value, pair.getter = some getter → pair.setter = some setter →
        ¬ S.Fits r getter setter value) := by
  cases addAccessorPair_step hstep with
  | incomplete hnone =>
    refine .inr ⟨rfl, fun getter setter value hg' hs' => ?_⟩
    rw [hg', hs'] at hnone
    rcases hnone with hnone | hnone <;> cases hnone
  | typeless getter setter hgetter hsetter hnone =>
    refine .inr ⟨rfl, fun getter' setter' value hg' hs' => ?_⟩
    cases hgetter.symm.trans hg'
    cases hsetter.symm.trans hs'
    rintro ⟨returns, param, taken, r₁, r₂, hreturns, hparam, -⟩
    rw [hreturns, hparam] at hnone
    rcases hnone with hnone | hnone <;> cases hnone
  | refused getter setter returns param value taken w₁ htypes hrefused =>
    obtain ⟨r₁, r₂, hvalue, htaken, -, -, hassign⟩ := h.pairTypes hv hg hget hset htypes
    refine .inr ⟨rfl, fun getter' setter' value' hg' hs' => ?_⟩
    cases htypes.hgetter.symm.trans hg'
    cases htypes.hsetter.symm.trans hs'
    rintro ⟨returns', param', taken', r₃, r₄, hreturns', hparam', hvalue', htaken', hfits⟩
    cases htypes.hreturns.symm.trans hreturns'
    cases htypes.hparam.symm.trans hparam'
    cases hvalue.symm.trans hvalue'
    cases htaken.symm.trans htaken'
    exact hrefused (hassign ▸ hfits)
  | added getter setter returns param value taken w₁ htypes hfits m hm =>
    obtain ⟨r₁, r₂, hvalue, htaken, hkin, hresolved, hassign⟩ := h.pairTypes hv hg hget hset htypes
    have hagain := h.modelFor hkin.rightValid hkin.right hresolved hm (Grown.refl _)
    exact .inl ⟨getter, setter, _, htypes.hgetter, htypes.hsetter, rfl, ⟨value,
      ⟨returns, param, taken, r₁, r₂, htypes.hreturns, htypes.hparam, hvalue, htaken,
        hassign.trans hfits⟩, hagain, rfl, rfl⟩, rfl⟩

/-! ## One field -/

/-- The property of a field that holds a holder. -/
theorem holderProperty_described (h : S.Begins r) (hv : w.Valid) (hg : r.Grown w) {f : Field}
    {ty : TypeExpr} {p : Property} (hp : holderProperty f ty w = .ok p w') :
    p.name = f.name ∧ p.isTransient = f.isTransient ∧ p.access = .holder f.name ∧
      ∃ held, HeldType w'.classes ty held ∧ Registry.modelFor held w' = .ok p.model w' := by
  obtain ⟨args, held, s, m, hargs, hheld, hm, rfl⟩ := holderProperty_eq_ok hp
  refine ⟨rfl, rfl, rfl, held, ?_⟩
  cases ha : args.head? with
  | none =>
    rw [ha] at hheld
    cases hheld
    have hobject := Resolved.named depthLimit .object
    obtain ⟨-, hgrown, -⟩ := (modelFor_keeps hobject).of_ok hv hm
    exact ⟨⟨args, hgrown.within.collectParameters hargs, by rw [ha]⟩,
      h.modelFor hv hg hobject hm (Grown.refl _)⟩
  | some arg =>
    rw [ha] at hheld
    obtain ⟨hv₁, hg₁, hres⟩ := (resolve_keeps arg ty).of_ok hv hheld
    obtain ⟨-, hgrown, -⟩ := (modelFor_keeps hres).of_ok hv₁ hm
    obtain ⟨t, ht, rfl⟩ := onTable_eq_ok hheld
    refine ⟨⟨args, (hg₁.trans hgrown).within.collectParameters hargs, ?_⟩,
      h.modelFor hv₁ (hg.trans hg₁) hres hm (Grown.refl _)⟩
    rw [ha]
    exact resolve_replays arg ty _ _ _ _ ht hgrown.within

/-- A field that is admitted has its property, another one has none. -/
theorem fieldProperty?_described (h : S.Begins r) (hv : w.Valid) (hg : r.Grown w) {f : Field}
    {p? : Option Property} (hf : r.classes.Knows f.type)
    (hstep : S.fieldProperty? f w = .ok p? w') :
    (∃ p, p? = some p ∧ p.name = f.name ∧ S.FieldProperty r w' f p ∧ S.Admits r f) ∨
      (p? = none ∧ ¬ S.Admits r f) := by
  obtain ⟨ty, w₁, hty, hstep⟩ := fieldProperty?_step hstep
  obtain ⟨r₁, hty', hres⟩ := h.resolve (h.kin hv hg) hf hty
  have hassign := hres.isAssignable hres.kin (Grown.refl _) (Grown.refl _) .holder
  cases hstep with
  | held hheld p hp =>
    rw [← hassign] at hheld
    obtain ⟨hname, htransient, haccess, hmodel⟩ :=
      holderProperty_described h hres.kin.rightValid hres.kin.right hp
    refine .inl ⟨p, rfl, hname, ⟨htransient, ty, r₁, hty', ?_⟩, ty, r₁, hty', .inl hheld⟩
    rw [if_pos hheld]
    exact ⟨haccess, hmodel⟩
  | skipped hheld n w₂ hn hskip =>
    rw [← hassign] at hheld
    obtain ⟨m, r₂, hm, hatomic⟩ :=
      hres.kin.modelFor h.valid hres.resolved hres.leftKnows hres.rightKnows hn
    refine .inr ⟨rfl, ?_⟩
    rintro ⟨ty', r₃, hty₃, hadmit⟩
    cases hty'.symm.trans hty₃
    rcases hadmit with hheld' | ⟨m', r₄, hm', hfree⟩
    · exact hheld hheld'
    · cases hm.symm.trans hm'
      rw [hatomic] at hfree
      exact hfree hskip
  | slotted hheld n hn hkept =>
    rw [← hassign] at hheld
    obtain ⟨m, r₂, hm, hatomic⟩ :=
      hres.kin.modelFor h.valid hres.resolved hres.leftKnows hres.rightKnows hn
    have hagain := h.modelFor hres.kin.rightValid hres.kin.right hres.resolved hn (Grown.refl _)
    refine .inl ⟨_, rfl, rfl, ⟨rfl, ty, r₁, hty', ?_⟩, ty, r₁, hty', .inr ⟨m, r₂, hm, ?_⟩⟩
    · rw [if_neg hheld]
      exact ⟨rfl, hagain⟩
    · rw [hatomic]
      exact hkept

/-! ## Later stages -/

theorem PairProperty.later (h : S.Begins r) (hv : w.Valid) (hg : r.Grown w) {types : List Class}
    {getter setter : Method} {p : Property} (hp : S.PairProperty r w types getter setter p)
    {q : Registry} (hq : w.Grown q) : S.PairProperty r q types getter setter p := by
  obtain ⟨value, hfits, hm, htransient, haccess⟩ := hp
  obtain ⟨returns, _, _, r₁, _, _, _, hvalue, _⟩ := id hfits
  obtain ⟨-, -, hres⟩ := (resolve_keeps returns S.site).of_ok h.valid hvalue
  exact ⟨value, hfits, h.modelFor hv hg hres hm hq, htransient, haccess⟩

theorem HeldType.resolved {t : ClassTable} {ty held : TypeExpr} (h : HeldType t ty held) :
    Resolved (depthLimit + 1) held := by
  obtain ⟨args, -, hheld⟩ := h
  cases ha : args.head? with
  | none => rw [ha] at hheld; cases hheld; exact Resolved.named depthLimit .object
  | some arg => rw [ha] at hheld; exact resolveAt_resolved hheld

theorem HeldType.mono {t u : ClassTable} {ty held : TypeExpr} (h : HeldType t ty held)
    (htu : t.Within u) : HeldType u ty held := by
  obtain ⟨args, hargs, hheld⟩ := h
  refine ⟨args, htu.collectParameters hargs, ?_⟩
  cases ha : args.head? with
  | none => rw [ha] at hheld; exact hheld
  | some arg => rw [ha] at hheld; exact resolve_replays arg ty _ _ _ _ hheld htu

theorem FieldProperty.later (h : S.Begins r) (hv : w.Valid) (hg : r.Grown w) {f : Field}
    {p : Property} (hp : S.FieldProperty r w f p) {q : Registry} (hq : w.Grown q) :
    S.FieldProperty r q f p := by
  obtain ⟨htransient, ty, r₁, hty, hp⟩ := hp
  refine ⟨htransient, ty, r₁, hty, ?_⟩
  split at hp
  · next hheld =>
    obtain ⟨haccess, held, hheldType, hm⟩ := hp
    rw [if_pos hheld]
    exact ⟨haccess, held, hheldType.mono hq.within, h.modelFor hv hg hheldType.resolved hm hq⟩
  · next hheld =>
    obtain ⟨haccess, hm⟩ := hp
    obtain ⟨-, -, hres⟩ := (resolve_keeps f.type S.site).of_ok h.valid hty
    rw [if_neg hheld]
    exact ⟨haccess, h.modelFor hv hg hres hm hq⟩

end Steps

/-! ## All accessor pairs -/

section Loops

variable {S : Scan} {r w w' : Registry} {types : List Class}

/-- What holds when some of the pairs were visited: the properties are those of the pairs that fit. -/
structure PairsDone (S : Scan) (r : Registry) (types : List Class) (done : List AccessorPair)
    (ps : List Property) (w : Registry) : Prop where
  valid : w.Valid
  grown : r.Grown w
  cached : AllCached ps w
  ordered : Ordered ps
  source : ∀ p ∈ ps, ∃ pair ∈ done, ∃ getter setter, pair.getter = some getter ∧
    pair.setter = some setter ∧ p.name = pair.property ∧ S.PairProperty r w types getter setter p
  found : ∀ pair ∈ done, ∀ getter setter value, pair.getter = some getter →
    pair.setter = some setter → S.Fits r getter setter value → ∃ p ∈ ps, p.name = pair.property

theorem PairsDone.step (h : S.Begins r) {done : List AccessorPair} {ps qs : List Property}
    {pair : AccessorPair} (hdone : S.PairsDone r types done ps w)
    (hget : ∀ m ty, pair.getter = some m → m.returns = some ty → r.classes.Knows ty)
    (hset : ∀ m ty, pair.setter = some m → ty ∈ m.params → r.classes.Knows ty)
    (hstep : S.addAccessorPair types ps pair w = .ok qs w') :
    S.PairsDone r types (done ++ [pair]) qs w' := by
  obtain ⟨hv', hg', hcached⟩ :=
    (addAccessorPair_keeps types hdone.cached pair).of_ok hdone.valid hstep
  have hsource : ∀ p ∈ ps, ∃ pair' ∈ done ++ [pair], ∃ getter setter, pair'.getter = some getter ∧
      pair'.setter = some setter ∧ p.name = pair'.property ∧
      S.PairProperty r w' types getter setter p := by
    intro p hp
    obtain ⟨pair', hin, getter, setter, hg, hs, hname, hprop⟩ := hdone.source p hp
    exact ⟨pair', List.mem_append_left _ hin, getter, setter, hg, hs, hname,
      hprop.later h hdone.valid hdone.grown hg'⟩
  rcases addAccessorPair_described h hdone.valid hdone.grown hget hset hstep with
    ⟨getter, setter, p, hg, hs, hname, hprop, rfl⟩ | ⟨rfl, hunfit⟩
  · refine ⟨hv', hdone.grown.trans hg', hcached, insertProperty_ordered hdone.ordered,
      fun q hq => ?_, fun pair' hin getter' setter' value hg₂ hs₂ hfits => ?_⟩
    · rcases mem_insertProperty hq with rfl | hq
      · exact ⟨pair, by simp, getter, setter, hg, hs, hname, hprop⟩
      · exact hsource q hq
    · rcases List.mem_append.1 hin with hin | hin
      · obtain ⟨q, hq, hq'⟩ := hdone.found pair' hin getter' setter' value hg₂ hs₂ hfits
        exact ⟨q, mem_insertProperty_of_mem hq, hq'⟩
      · cases List.mem_singleton.1 hin
        rw [← hname]
        exact name_mem_insertProperty p ps
  · refine ⟨hv', hdone.grown.trans hg', hcached, hdone.ordered, hsource,
      fun pair' hin getter' setter' value hg₂ hs₂ hfits => ?_⟩
    rcases List.mem_append.1 hin with hin | hin
    · exact hdone.found pair' hin getter' setter' value hg₂ hs₂ hfits
    · cases List.mem_singleton.1 hin
      exact absurd hfits (hunfit getter' setter' value hg₂ hs₂)

/-- The pairs of the supertypes, all visited. -/
theorem addAccessorPairs_described (h : S.Begins r) {pairs : List AccessorPair} {ps : List Property}
    (htypes : r.classes.supertypes S.owner.id = .ok types)
    (hpairs : pairs.Perm (accessorPairs (types.flatMap (·.accessors S.config))))
    (hrun : S.addAccessorPairs types pairs r = .ok ps w) : S.PairsDone r types pairs ps w := by
  have hmentions : ∀ pair ∈ pairs, ∀ m, pair.getter = some m ∨ pair.setter = some m →
      ∃ c, r.classes.find? c.id = some c ∧ m ∈ c.methods := by
    intro pair hpair m hm
    obtain ⟨c, hc, hmem⟩ := accessorPairs_declared (hpairs.mem_iff.1 hpair) hm
    exact ⟨c, found_of_supertypes htypes c hc, hmem⟩
  have hbegin : S.PairsDone r types [] [] r :=
    ⟨h.valid, Grown.refl r, fun p hp => (by cases hp), List.Pairwise.nil, fun p hp => (by cases hp),
      fun pair hp => (by cases hp)⟩
  refine foldlM_history (P := S.PairsDone r types) (fun done pair hpair ps w qs w' hdone hstep => ?_)
    [] hbegin hrun
  refine hdone.step h (fun m ty hm hty => ?_) (fun m ty hm hty => ?_) hstep
  · obtain ⟨c, hc, hmem⟩ := hmentions pair hpair m (.inl hm)
    exact h.base.closed c.id c hc ty (Class.mentions_result hmem hty)
  · obtain ⟨c, hc, hmem⟩ := hmentions pair hpair m (.inr hm)
    exact h.base.closed c.id c hc ty (Class.mentions_param hmem hty)

/-- A name has a property by now just when its accessors fit. -/
theorem PairsDone.names {pairs : List AccessorPair} {ps : List Property}
    (hdone : S.PairsDone r types pairs ps w)
    (hpairs : pairs.Perm (accessorPairs (types.flatMap (·.accessors S.config)))) (name : String) :
    (∃ p ∈ ps, p.name = name) ↔ S.Paired r types name := by
  constructor
  · rintro ⟨p, hp, rfl⟩
    obtain ⟨pair, hin, getter, setter, hg, hs, hname, value, hfits, -⟩ := hdone.source p hp
    obtain ⟨hgetter, hsetter⟩ := accessors_of_pair (hpairs.mem_iff.1 hin)
    rw [hname]
    exact ⟨getter, setter, value, hgetter ▸ hg, hsetter ▸ hs, hfits⟩
  · rintro ⟨getter, setter, value, hg, hs, hfits⟩
    exact hdone.found _ (hpairs.mem_iff.2 (pair_of_accessors hg hs)) getter setter value rfl rfl hfits

/-! ## All fields -/

/-- What holds when some of the fields were gone through: those of the pairs are kept, and the others are of
the first eligible field of a name that no pair has. -/
structure FieldsDone (S : Scan) (r : Registry) (ps : List Property) (done : List Field)
    (qs : List Property) (w : Registry) : Prop where
  valid : w.Valid
  grown : r.Grown w
  cached : AllCached qs w
  ordered : Ordered qs
  kept : ∀ p ∈ ps, p ∈ qs
  source : ∀ p ∈ qs, p ∈ ps ∨ (∀ q ∈ ps, q.name ≠ p.name) ∧
    ∃ f, S.FirstEligible r done p.name f ∧ S.FieldProperty r w f p
  found : ∀ f ∈ done, S.Eligible r f → ∃ p ∈ qs, p.name = f.name

theorem FirstEligible.append {fields : List Field} {name : String} {f : Field}
    (h : S.FirstEligible r fields name f) (more : List Field) :
    S.FirstEligible r (fields ++ more) name f := by
  obtain ⟨before, rest, rfl, hname, heligible, hfirst⟩ := h
  exact ⟨before, rest ++ more, by simp, hname, heligible, hfirst⟩

theorem FieldsDone.step (h : S.Begins r) {done : List Field} {ps qs qs' : List Property} {f : Field}
    (hdone : S.FieldsDone r ps done qs w) (hf : r.classes.Knows f.type)
    (hstep : S.addField qs f w = .ok qs' w') : S.FieldsDone r ps (done ++ [f]) qs' w' := by
  obtain ⟨hv', hg', hcached⟩ := (addField_keeps hdone.cached f).of_ok hdone.valid hstep
  have hsource : ∀ p ∈ qs, p ∈ ps ∨ (∀ q ∈ ps, q.name ≠ p.name) ∧
      ∃ g, S.FirstEligible r (done ++ [f]) p.name g ∧ S.FieldProperty r w' g p := by
    intro p hp
    rcases hdone.source p hp with hin | ⟨hfree, g, hg, hprop⟩
    · exact .inl hin
    · exact .inr ⟨hfree, g, hg.append _, hprop.later h hdone.valid hdone.grown hg'⟩
  -- a field that adds nothing is not eligible, or its name is taken
  have same : qs' = qs → (S.Eligible r f → ∃ p ∈ qs, p.name = f.name) →
      S.FieldsDone r ps (done ++ [f]) qs' w' := by
    rintro rfl htaken
    refine ⟨hv', hdone.grown.trans hg', hcached, hdone.ordered, hdone.kept, hsource,
      fun g hin heligible => ?_⟩
    rcases List.mem_append.1 hin with hin | hin
    · exact hdone.found g hin heligible
    · cases List.mem_singleton.1 hin
      exact htaken heligible
  unfold addField at hstep
  split at hstep
  · next hskip =>
    cases hstep
    refine same rfl fun heligible => ?_
    have htaken : hasProperty qs f.name = true := by
      simpa [heligible.1, heligible.2.1] using hskip
    simpa [hasProperty] using htaken
  · next hskip =>
    obtain ⟨⟨hnative, hfree⟩, hvisible⟩ :
        (f.modifiers.isNative = false ∧ hasProperty qs f.name = false) ∧ S.isVisible f = true := by
      simpa using hskip
    have hnone : ∀ q ∈ qs, q.name ≠ f.name := by simpa [hasProperty] using hfree
    obtain ⟨p?, w₁, hp, h₁⟩ := bind_eq_ok_iff.1 hstep
    rcases fieldProperty?_described h hdone.valid hdone.grown hf hp with
      ⟨p, rfl, hname, hprop, hadmits⟩ | ⟨rfl, hrefused⟩
    · cases h₁
      have heligible : S.Eligible r f := ⟨hnative, hvisible, hadmits⟩
      refine ⟨hv', hdone.grown.trans hg', hcached, insertProperty_ordered hdone.ordered,
        fun q hq => mem_insertProperty_of_mem (hdone.kept q hq), fun q hq => ?_,
        fun g hin hg => ?_⟩
      · rcases mem_insertProperty hq with rfl | hq
        · refine .inr ⟨fun q hq => hname ▸ hnone q (hdone.kept q hq), f, ⟨done, [], rfl, hname.symm,
            heligible, fun g hg hsame hearlier => ?_⟩, hprop⟩
          obtain ⟨q, hq, hqname⟩ := hdone.found g hg hearlier
          exact hnone q hq (hqname.trans (hsame.trans hname))
        · exact hsource q hq
      · rcases List.mem_append.1 hin with hin | hin
        · obtain ⟨q, hq, hqname⟩ := hdone.found g hin hg
          exact ⟨q, mem_insertProperty_of_mem hq, hqname⟩
        · cases List.mem_singleton.1 hin
          rw [← hname]
          exact name_mem_insertProperty p qs
    · cases h₁
      exact same rfl fun heligible => absurd heligible.2.2 hrefused

end Loops

/-! ## The whole scan -/

section Whole

variable {S : Scan} {r w w' : Registry} {types chain : List Class} {mid ps : List Property}

theorem Begins.knows_field (h : S.Begins r) (hchain : r.classes.superclassChain S.owner = .ok chain) {f : Field}
    (hf : f ∈ chain.flatMap Class.instanceFields) : r.classes.Knows f.type := by
  obtain ⟨c, hc, hfc⟩ := List.mem_flatMap.1 hf
  have hfound := found_of_chainFrom h.owner hchain c hc
  exact h.base.closed c.id c hfound f.type (Class.mentions_field (List.mem_filter.1 hfc).1)

/-- The fields of the superclass chain, all gone through. -/
theorem addFields_described (h : S.Begins r) (hv : w.Valid) (hg : r.Grown w) (hcached : AllCached mid w)
    (hordered : Ordered mid) (hfields : S.addFields mid w = .ok ps w') :
    ∃ chain, r.classes.superclassChain S.owner = .ok chain ∧
      S.FieldsDone r mid (chain.flatMap Class.instanceFields) ps w' := by
  obtain ⟨chain, hchain, hfold⟩ := addFields_eq_ok hfields
  have hchain' : r.classes.superclassChain S.owner = .ok chain :=
    (h.base.anchored hg.within).superclassChain (Within.refl _) h.owner hchain
  have hbegin : S.FieldsDone r mid [] mid w :=
    ⟨hv, hg, hcached, hordered, fun _ hp => hp, fun _ hp => .inl hp, fun f hf => (by cases hf)⟩
  exact ⟨chain, hchain', foldlM_history (P := S.FieldsDone r mid)
    (fun done f hf qs w qs' w' hqs hstep => hqs.step h (h.knows_field hchain' hf) hstep) [] hbegin hfold⟩

/-- When pairs and fields are done, the properties are those of the description. -/
theorem FieldsDone.description (h : S.Begins r) {pairs : List AccessorPair} (hdone : S.PairsDone r types pairs mid w)
    (hpairs : pairs.Perm (accessorPairs (types.flatMap (·.accessors S.config))))
    (hend : S.FieldsDone r mid (chain.flatMap Class.instanceFields) ps w') (hg : w.Grown w') :
    S.Description r w' types chain ps := by
  have hpaired := hdone.names hpairs
  refine ⟨hend.ordered, fun name => ?_, fun p hp hpair => ?_, fun p hp hunpaired => ?_⟩
  · constructor
    · rintro ⟨p, hp, rfl⟩
      rcases hend.source p hp with hin | ⟨hfree, f, ⟨before, rest, hsplit, hname, heligible, -⟩, -⟩
      · exact .inl ((hpaired p.name).1 ⟨p, hin, rfl⟩)
      · refine .inr ⟨fun hpair => ?_, f, by simp [hsplit], hname, heligible⟩
        obtain ⟨q, hq, hqname⟩ := (hpaired p.name).2 hpair
        exact hfree q hq hqname
    · rintro (hpair | ⟨-, f, hf, rfl, heligible⟩)
      · obtain ⟨q, hq, hqname⟩ := (hpaired name).2 hpair
        exact ⟨q, hend.kept q hq, hqname⟩
      · exact hend.found f hf heligible
  · obtain ⟨q, hq, hqname⟩ := (hpaired p.name).2 hpair
    -- no two properties have one name, so this one is of the pair
    obtain rfl : q = p := by
      have hown := find?_of_ordered hend.ordered hp
      rw [← hqname, find?_of_ordered hend.ordered (hend.kept q hq)] at hown
      exact Option.some.inj hown
    obtain ⟨pair, hin, getter, setter, hgetter, hsetter, hname, hprop⟩ := hdone.source q hq
    obtain ⟨hgetter', hsetter'⟩ := accessors_of_pair (hpairs.mem_iff.1 hin)
    rw [hname]
    exact ⟨getter, setter, hgetter' ▸ hgetter, hsetter' ▸ hsetter, hprop.later h hdone.valid hdone.grown hg⟩
  · rcases hend.source p hp with hin | ⟨-, f, hfirst, hprop⟩
    · exact absurd ((hpaired p.name).1 ⟨p, hin, rfl⟩) hunpaired
    · exact ⟨f, hfirst, hprop⟩

/-- The models of the described properties are found again later. -/
theorem Description.later (h : S.Begins r) (hd : S.Description r w types chain ps) (hv : w.Valid)
    (hg : r.Grown w) (hg' : w.Grown w') : S.Description r w' types chain ps where
  ordered := hd.ordered
  names := hd.names
  accessors p hp hpair := by
    obtain ⟨getter, setter, hgetter, hsetter, hprop⟩ := hd.accessors p hp hpair
    exact ⟨getter, setter, hgetter, hsetter, hprop.later h hv hg hg'⟩
  fields p hp hunpaired := by
    obtain ⟨f, hfirst, hprop⟩ := hd.fields p hp hunpaired
    exact ⟨f, hfirst, hprop.later h hv hg hg'⟩

/-- Whatever order the accessor pairs are visited in, the scan answers what is described. -/
theorem Begins.described (h : S.Begins r) {arrange : List AccessorPair → List AccessorPair}
    (harrange : ∀ pairs, (arrange pairs).Perm pairs) (hrun : S.runVia arrange r = .ok ps w') :
    ∃ types chain, r.classes.supertypes S.owner.id = .ok types ∧
      r.classes.superclassChain S.owner = .ok chain ∧ S.Description r w' types chain ps := by
  obtain ⟨types, mid, r₁, r₂, htypes, hpairs, hfields, hlast⟩ := runVia_eq_ok hrun
  have hperm := harrange (accessorPairs (types.flatMap (·.accessors S.config)))
  have hdone := addAccessorPairs_described h htypes hperm hpairs
  obtain ⟨chain, hchain, hend⟩ :=
    addFields_described h hdone.valid hdone.grown hdone.cached hdone.ordered hfields
  obtain ⟨-, hg, -⟩ := (addFields_keeps hdone.cached).of_ok hdone.valid hfields
  exact ⟨types, chain, htypes, hchain,
    (hend.description h hdone hperm hg).later h hend.valid hend.grown hlast⟩

end Whole

end Scan

open Scan

/-- A scan in a reachable registry, or at a later stage of a lookup there, over a closed table that has the
owner and every class that the site names. Whatever order it visits the accessor pairs in, the properties
that it answers are those of the description. -/
theorem scan_described (config : Config) (ops : List Operation) {S : Scan} {r r' : Registry}
    {arrange : List AccessorPair → List AccessorPair} {ps : List Property}
    (hstage : (reached config ops).registry.Grown r) (hv : r.Valid) (hclosed : r.classes.Closed)
    (howner : r.classes.find? S.owner.id = some S.owner) (hsite : r.classes.Knows S.site)
    (harrange : ∀ pairs, (arrange pairs).Perm pairs) (hrun : S.runVia arrange r = .ok ps r') :
    ∃ types chain, r.classes.supertypes S.owner.id = .ok types ∧
      r.classes.superclassChain S.owner = .ok chain ∧ S.Description r r' types chain ps := by
  have hsealed : r.classes.Sealed := ⟨(reached_rooted config ops).within hstage.within, hclosed⟩
  have h : S.Begins r := ⟨hv, hsealed, howner, hsite⟩
  exact h.described harrange hrun

/-- A card with two pairs of accessors, visited the last one first, a label that is held and a final code. -/
theorem scan_described_card :
    let d := (((Declaration.plain ⟨"Card"⟩).accessor "title" (.named .string)).accessor "size"
      (.named PrimitiveKind.int32.primitiveId)).field
        ⟨"label", .apply .holder [.named .string], .privateOnly, true⟩ |>.field
        ⟨"code", .named .string, publicFinal, false⟩
    let c := d.draft.normalize
    let r := (reached {} [.define d.draft]).registry
    let S : Scan := ⟨c, .named c.id, {}⟩
    ∃ ps r', S.runVia List.reverse r = .ok ps r' ∧ ps.map (·.name) = ["label", "size", "title"] ∧
      ∃ types chain, r.classes.supertypes c.id = .ok types ∧
        r.classes.superclassChain c = .ok chain ∧ S.Description r r' types chain ps := by
  intro d c r S
  have houtcome : outcome (do return (← S.runVia List.reverse).map (·.name)) r =
      .ok ["label", "size", "title"] := by decide +kernel
  obtain ⟨ps, r', hrun, hpure⟩ := bind_eq_ok_iff.1 (eq_ok_of_outcome houtcome)
  have hnames : ps.map (·.name) = ["label", "size", "title"] := by
    injection hpure
  have hclosed : r.classes.Closed := Closed.of_classes (by decide +kernel)
  have howner : r.classes.find? c.id = some c := reached_declared {} [] _ (by decide +kernel)
  exact ⟨ps, r', hrun, hnames, scan_described {} [.define d.draft] (Grown.refl r) (reached_valid _ _)
    hclosed howner (by decide +kernel) List.reverse_perm hrun⟩

end Introspect
