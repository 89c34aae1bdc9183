import Introspect.Proofs.Classes.Members
import Introspect.Proofs.Models.FieldOrigins
import Introspect.Proofs.Models.Likeness

/-!
Registries seen without the members of closed classes.

The search of models reads no members at all, and the collection of accessor pairs none of closed classes. In
two registries that differ in such members only, both go the same way: they answer the same or fail the same,
and the registries they leave differ in such members only. So does what a scan makes of one field, wherever the
field was declared.

* `Class.masked`, `Registry.outside`: what is seen of a class and of a registry.
* `modelFor_indistinct`: the search of a model.
* `Scan.pairs_alike`: the accessor pairs of a scan.
* `Scan.addField_indistinct`: a field of a scan.
-/

namespace Introspect

open Registry ClassTable TypeExpr

/-! ## Closed classes -/

/-- The class without the members that may not be introspected. -/
def Class.masked (c : Class) : Class :=
  { c with
    methods := if c.accessible then c.methods else []
    fields := if c.accessible then c.fields else [] }

theorem Class.masked_membersOnly : MembersOnly masked := fun _ => rfl

theorem Class.fields_masked {c : Class} (h : c.accessible = true) : c.masked.fields = c.fields :=
  if_pos h

/-- A closed class gives no accessors. -/
theorem Class.accessors_masked (config : Config) (c : Class) :
    c.masked.accessors config = c.accessors config := by
  unfold accessors masked
  cases c.accessible <;> rfl

section

variable {c d : Class} (h : c.masked = d.masked)
include h

theorem Class.id_of_masked : c.id = d.id := masked_membersOnly.alike h fun _ _ _ => rfl

theorem Class.isArray_of_masked : c.isArray = d.isArray := masked_membersOnly.alike h fun _ _ _ => rfl

theorem Class.isRecord_of_masked : c.isRecord = d.isRecord := masked_membersOnly.alike h fun _ _ _ => rfl

end

/-- The tables differ in the methods and fields of closed classes only. -/
def ClassTable.SameOpen (t u : ClassTable) : Prop :=
  t.mapClasses Class.masked = u.mapClasses Class.masked

/-- The model without closed members of its class. -/
def Model.masked (m : Model) : Model := { m with cls := m.cls.masked }

/-- What is known of a registry without the members of closed classes, the contents of models and the
journal. -/
structure Registry.Outside where
  classes : ClassTable
  codecs : CodecTable
  models : List Model
  config : Config
  order : VisitOrder
  live : Bool

def Registry.outside (r : Registry) : Outside :=
  ⟨r.classes.mapClasses Class.masked, r.codecs, r.models.map Model.masked, r.config, r.order,
    r.live⟩

/-- The property without closed members of its value model. A field of a closed class may have made it transient,
so that is left out as well. -/
def Property.masked (p : Property) : Property :=
  { p with model := p.model.masked, isTransient := false }

section

variable {r s : Registry} (h : r.outside = s.outside)
include h

theorem Registry.sameOpen_of_outside : r.classes.SameOpen s.classes := (Outside.mk.inj h).1

theorem Registry.codecs_of_outside : r.codecs = s.codecs := (Outside.mk.inj h).2.1

theorem Registry.models_of_outside : r.models.map Model.masked = s.models.map Model.masked :=
  (Outside.mk.inj h).2.2.1

theorem Registry.config_of_outside : r.config = s.config := (Outside.mk.inj h).2.2.2.1

theorem Registry.order_of_outside : r.order = s.order := (Outside.mk.inj h).2.2.2.2.1

theorem Registry.isAssignable_of_outside : r.classes.isAssignable = s.classes.isAssignable :=
  isAssignable_alike Class.masked_membersOnly (sameOpen_of_outside h)

theorem Registry.withTable_outside {t u : ClassTable} (htu : t.SameOpen u) :
    ({ r with classes := t } : Registry).outside = ({ s with classes := u } : Registry).outside := by
  obtain ⟨-, hrest⟩ := Outside.mk.inj h
  exact (Outside.mk.injEq ..).mpr ⟨htu, hrest⟩

theorem Registry.withModel_outside {m n : Model} (hmn : m.masked = n.masked) :
    (r.withModel m).outside = (s.withModel n).outside := by
  obtain ⟨hclasses, hcodecs, hmodels, hrest⟩ := Outside.mk.inj h
  refine (Outside.mk.injEq ..).mpr ⟨hclasses, hcodecs, ?_, hrest⟩
  show (r.models ++ [m]).map Model.masked = (s.models ++ [n]).map Model.masked
  rw [List.map_append, List.map_append, hmodels, List.map_singleton, List.map_singleton, hmn]

end

theorem onTable_indistinct {α β : Type} {k : α → β} {x y : TableM α}
    (hxy : Indistinct (mapClasses Class.masked) k x y) :
    Indistinct Registry.outside k (onTable x) (onTable y) := by
  intro r s h
  rw [onTable_apply, onTable_apply]
  rcases hxy.outcomes (sameOpen_of_outside h) with ⟨a, b, t, u, hx, hy, hab, htu⟩ | ⟨e, t, u, hx, hy, htu⟩
  · rw [hx, hy]
    show EStateM.Result.ok (k a) _ = .ok (k b) _
    rw [hab, withTable_outside h htu]
  · rw [hx, hy]
    exact congrArg (EStateM.Result.error e) (withTable_outside h htu)

/-! ## Models -/

theorem resolveOn_indistinct (ty site : TypeExpr) :
    Indistinct Registry.outside id (onTable (ClassTable.resolve ty site))
      (onTable (ClassTable.resolve ty site)) :=
  onTable_indistinct (resolve_indistinct Class.masked_membersOnly ty site)

theorem log_indistinct (level level' : LogLevel) (text text' : String) :
    Indistinct Registry.outside id (log level text) (log level' text') :=
  Indistinct.modify fun _ _ h => h

section

variable {r s : Registry} (h : r.outside = s.outside) {c d : Class} (hcd : c.masked = d.masked)
include h hcd

theorem codec_of_masked : r.codecs.find? c = s.codecs.find? d := by
  rw [codecs_of_outside h]
  unfold CodecTable.find?
  rw [Class.id_of_masked hcd, Class.masked_membersOnly.alike hcd (f := Class.kind) fun _ _ _ => rfl]

theorem kindOf_of_masked (codec : Option Codec) (args : List TypeExpr) :
    r.kindOf c codec args = s.kindOf d codec args := by
  unfold kindOf
  rw [isAssignable_of_outside h, Class.id_of_masked hcd, Class.isArray_of_masked hcd]

theorem newModel_masked (concrete : TypeExpr) (raw : ClassId) (args : List TypeExpr) :
    (r.newModel concrete c raw args).masked = (s.newModel concrete d raw args).masked := by
  have hsize : r.models.length = s.models.length := by
    rw [← List.length_map Model.masked, models_of_outside h, List.length_map]
  unfold newModel keyFor Model.masked
  rw [codec_of_masked h hcd, kindOf_of_masked h hcd, hsize, hcd]

end

theorem findModel?_of_masked {r s : Registry} (h : r.outside = s.outside) (key : ModelKey) :
    (r.findModel? key).map Model.masked = (s.findModel? key).map Model.masked := by
  have hfind : ∀ ms : List Model, (ms.find? (·.key = key)).map Model.masked =
      (ms.map Model.masked).find? (·.key = key) := by
    intro ms
    rw [List.find?_map]
    rfl
  unfold findModel?
  rw [hfind, models_of_outside h, hfind]

theorem cachedModel_indistinct (concrete : TypeExpr) {c d : Class} (hcd : c.masked = d.masked)
    (raw : ClassId) (args : List TypeExpr) :
    Indistinct Registry.outside Model.masked (cachedModel concrete c raw args)
      (cachedModel concrete d raw args) := by
  intro r s h
  have hkey : r.keyFor c raw args = s.keyFor d raw args := by
    unfold keyFor
    rw [codec_of_masked h hcd, kindOf_of_masked h hcd]
  have hfound := findModel?_of_masked h (s.keyFor d raw args)
  -- either both caches hold a model of the key, or both make one
  rw [cachedModel_apply, cachedModel_apply, hkey]
  cases hr : r.findModel? (s.keyFor d raw args) with
  | some m =>
    cases hs : s.findModel? (s.keyFor d raw args) with
    | some n =>
      rw [hr, hs] at hfound
      show EStateM.Result.ok m.masked r.outside = .ok n.masked s.outside
      rw [h, Option.some.inj hfound]
    | none => rw [hr, hs] at hfound; cases hfound
  | none =>
    cases hs : s.findModel? (s.keyFor d raw args) with
    | some n => rw [hr, hs] at hfound; cases hfound
    | none =>
      have hnew := newModel_masked h hcd concrete raw args
      show EStateM.Result.ok _ (r.withModel _).outside = .ok _ (s.withModel _).outside
      rw [hnew, withModel_outside h hnew]

theorem modelWithin_indistinct (n : Nat) (ty : TypeExpr) :
    Indistinct Registry.outside Model.masked (modelWithin n ty) (modelWithin n ty) := by
  induction n generalizing ty with
  | zero => exact Indistinct.throw _
  | succ n ih =>
    unfold modelWithin
    cases ty.parts? with
    | none => exact Indistinct.throw _
    | some p =>
      obtain ⟨raw, args⟩ := p
      refine Indistinct.get fun r s h => ?_
      refine (Indistinct.ofExcept (lookup_alike Class.masked_membersOnly (sameOpen_of_outside h) raw)).bind
        fun c d hcd => ?_
      -- whether the search goes on, and from which superclass, is in the header of the class
      rw [Class.masked_membersOnly.alike hcd (f := Class.synthetic) fun _ _ _ => rfl,
        Class.masked_membersOnly.alike hcd (f := Class.superclass) fun _ _ _ => rfl]
      split
      · exact (resolveOn_indistinct _ _).bind_id fun resolved => ih resolved
      · exact cachedModel_indistinct ty hcd raw args

theorem modelFor_indistinct (ty : TypeExpr) :
    Indistinct Registry.outside Model.masked (modelFor ty) (modelFor ty) :=
  modelWithin_indistinct _ ty

theorem modelOf_indistinct (ty : TypeExpr) :
    Indistinct Registry.outside Model.masked (modelOf ty) (modelOf ty) :=
  (resolveOn_indistinct ty ty).bind_id modelFor_indistinct

theorem isAtomic_of_masked {m n : Model} (h : m.masked = n.masked) : m.isAtomic = n.isAtomic := by
  obtain ⟨-, -, -, hcls, -, hcodec⟩ := Model.mk.inj h
  unfold Model.isAtomic
  rw [hcodec, Class.isArray_of_masked hcls]

theorem argumentModels_indistinct {m n : Model} (h : m.masked = n.masked) :
    Indistinct Registry.outside (List.map Model.masked) m.argumentModels n.argumentModels := by
  obtain ⟨-, -, htype, -, hkind, -⟩ := Model.mk.inj h
  unfold Model.argumentModels Model.typeArguments
  rw [htype, hkind]
  exact Indistinct.ite (Indistinct.mapM fun ty _ => modelFor_indistinct ty) (Indistinct.pure rfl)

/-! ## Properties -/

theorem name_of_masked {p q : Property} (h : p.masked = q.masked) : p.name = q.name :=
  (Property.mk.inj h).2.1

theorem insertProperty_masked {p q : Property} {ps qs : List Property} (h : p.masked = q.masked)
    (hs : ps.map Property.masked = qs.map Property.masked) :
    (insertProperty p ps).map Property.masked = (insertProperty q qs).map Property.masked :=
  insertProperty_map (fun _ _ => name_of_masked) h hs

/-- The hierarchies declare the same accessors. -/
theorem flatMap_accessors_of_masked {types types' : List Class}
    (h : types.map Class.masked = types'.map Class.masked) (config : Config) :
    types.flatMap (·.accessors config) = types'.flatMap (·.accessors config) := by
  have hmap : ∀ types : List Class, types.flatMap (·.accessors config) =
      (types.map Class.masked).flatMap (·.accessors config) := by
    intro types
    rw [List.flatMap_map]
    exact congrArg types.flatMap (funext fun c => (c.accessors_masked config).symm)
  rw [hmap, h, ← hmap]

namespace Scan

section

variable {c d : Class} (hcd : c.masked = d.masked) (site : TypeExpr) (config : Config)
include hcd

omit hcd in
theorem traced_indistinct (text : String) {ps qs : List Property}
    (h : ps.map Property.masked = qs.map Property.masked) :
    Indistinct Registry.outside (List.map Property.masked)
      (do trace ⟨c, site, config⟩ text; return ps) (do trace ⟨d, site, config⟩ text; return qs) :=
  (log_indistinct _ _ _ _).bind_id fun _ => Indistinct.pure h

theorem addAccessorPair_indistinct (types types' : List Class) (pair : AccessorPair)
    {ps qs : List Property} (h : ps.map Property.masked = qs.map Property.masked) :
    Indistinct Registry.outside (List.map Property.masked)
      (addAccessorPair ⟨c, site, config⟩ types ps pair)
      (addAccessorPair ⟨d, site, config⟩ types' qs pair) := by
  unfold addAccessorPair
  cases pair.getter with
  | none => exact traced_indistinct site config _ h
  | some getter =>
    cases pair.setter with
    | none => exact traced_indistinct site config _ h
    | some setter =>
      simp only
      cases getter.returns with
      | none => exact Indistinct.pure h
      | some returns =>
        cases setter.params.head? with
        | none => exact Indistinct.pure h
        | some param =>
          simp only
          refine (resolveOn_indistinct returns site).bind_id fun value => ?_
          refine (resolveOn_indistinct param site).bind_id fun taken => ?_
          refine Indistinct.get fun r s hrs => ?_
          rw [isAssignable_of_outside hrs]
          refine Indistinct.ite ?_ (traced_indistinct site config _ h)
          refine (modelFor_indistinct value).bind fun m n hmn =>
            Indistinct.pure (insertProperty_masked ?_ h)
          -- a field of a closed class may decide the transient flag, which `masked` forgets
          simp only [Property.masked, dispatch, hmn, Class.id_of_masked hcd]

theorem addAccessorPairs_indistinct (types types' : List Class) (pairs : List AccessorPair) :
    Indistinct Registry.outside (List.map Property.masked)
      (addAccessorPairs ⟨c, site, config⟩ types pairs)
      (addAccessorPairs ⟨d, site, config⟩ types' pairs) :=
  Indistinct.foldlM (fun pair _ _ _ => addAccessorPair_indistinct hcd site config types types' pair) rfl

/-- Both scans collect the same accessor pairs, and visit them in the same order. -/
theorem pairs_alike {r r' s s' : Registry} (h : r.outside = s.outside) {types types' : List Class}
    (htypes : r.classes.supertypes c.id = .ok types) (htypes' : s.classes.supertypes d.id = .ok types')
    {ps qs : List Property}
    (hps : addAccessorPairs ⟨c, site, config⟩ types
      (r.order.arrange (accessorPairs (types.flatMap (·.accessors config)))) r = .ok ps r')
    (hqs : addAccessorPairs ⟨d, site, config⟩ types'
      (s.order.arrange (accessorPairs (types'.flatMap (·.accessors config)))) s = .ok qs s') :
    ps.map Property.masked = qs.map Property.masked ∧ r'.outside = s'.outside := by
  have hsame := supertypes_alike Class.masked_membersOnly (sameOpen_of_outside h) c.id
  rw [htypes, Class.id_of_masked hcd, htypes'] at hsame
  rw [flatMap_accessors_of_masked (Except.ok.inj hsame), order_of_outside h] at hps
  exact (addAccessorPairs_indistinct hcd site config types types' _).of_ok h hps hqs

omit hcd in
theorem holderProperty_indistinct (f : Field) (fieldType : TypeExpr) :
    Indistinct Registry.outside Property.masked (holderProperty f fieldType)
      (holderProperty f fieldType) := by
  unfold holderProperty
  refine Indistinct.get fun r s h => ?_
  rw [collectParameters_alike Class.masked_membersOnly (sameOpen_of_outside h)]
  refine (Indistinct.ofExcept rfl).bind_id fun args => ?_
  have hrest : ∀ held : TypeExpr, Indistinct Registry.outside Property.masked
      (do return (⟨← modelFor held, f.name, f.isTransient, .holder f.name⟩ : Property))
      (do return (⟨← modelFor held, f.name, f.isTransient, .holder f.name⟩ : Property)) := fun held =>
    (modelFor_indistinct held).bind fun m n hmn => Indistinct.pure (by simp only [Property.masked, hmn])
  cases args.head? with
  | none => exact hrest .object
  | some arg => exact (resolveOn_indistinct arg fieldType).bind_id hrest

theorem fieldProperty?_indistinct (f : Field) :
    Indistinct Registry.outside (Option.map Property.masked) (fieldProperty? ⟨c, site, config⟩ f)
      (fieldProperty? ⟨d, site, config⟩ f) := by
  have hrecord := Class.isRecord_of_masked hcd
  unfold fieldProperty?
  refine (resolveOn_indistinct f.type site).bind_id fun fieldType => ?_
  refine Indistinct.get fun r s h => ?_
  rw [isAssignable_of_outside h]
  refine Indistinct.ite ?_ ?_
  · refine (holderProperty_indistinct f fieldType).bind fun p q hpq => Indistinct.pure ?_
    rw [Option.map_some, Option.map_some, hpq]
  · refine (modelFor_indistinct fieldType).bind fun m n hmn => ?_
    simp only [isAtomic_of_masked hmn, hrecord]
    refine Indistinct.ite ?_ (Indistinct.pure ?_)
    · exact (log_indistinct _ _ _ _).bind_id fun _ => Indistinct.pure rfl
    · simp only [Option.map_some, Property.masked, slotAccess, hmn, hrecord]

theorem addField_indistinct (f : Field) {ps qs : List Property}
    (h : ps.map Property.masked = qs.map Property.masked) :
    Indistinct Registry.outside (List.map Property.masked) (addField ⟨c, site, config⟩ ps f)
      (addField ⟨d, site, config⟩ qs f) := by
  unfold addField
  rw [hasProperty_map Property.name (g := Property.masked) (fun _ => rfl) h]
  simp only [isVisible, Class.isRecord_of_masked hcd]
  refine Indistinct.ite (Indistinct.pure h) ?_
  refine (fieldProperty?_indistinct hcd site config f).bind fun p? q? hpq => ?_
  cases p? with
  | none =>
    cases q? with
    | none => exact Indistinct.pure h
    | some q => cases hpq
  | some p =>
    cases q? with
    | none => cases hpq
    | some q => exact Indistinct.pure (insertProperty_masked (Option.some.inj hpq) h)

end

end Scan

end Introspect
