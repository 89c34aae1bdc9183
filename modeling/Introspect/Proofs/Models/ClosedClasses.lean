import Introspect.Classes.Declaration
import Introspect.Proofs.Models.OpenMembers

/-!
What models show of closed classes.

The methods of a closed class make no accessor pair, of its own models or of those of its subclasses. Its fields
are treated as those of any class: what is public or managed, or private in a record, is a property.

* `ClassTable.exposedFields`, `ClassTable.closedFields`: the fields that a scan finds along a superclass
  chain, and those of them that closed classes declare.
* `Scan.fields_added`, `Scan.fields_named`: the properties they make.
* `FirstModel`: what the first lookup in a new registry answers.
* `closed_class_members`: two tables that differ in members of closed classes only.
* `closed_field_shown`: a public field of a closed class is a property of its model and of a subclass's.
-/

namespace Introspect

open Registry ClassTable

/-! ## Exposed fields -/

/-- A scan of the class has a property for a field like this, if no other has taken its name. -/
def Class.exposes (c : Class) (f : Field) : Bool :=
  !f.modifiers.isNative &&
    (f.modifiers.isPublic || f.managed || (c.isRecord && f.modifiers.isPrivate))

namespace ClassTable

/-- The class and its superclasses, as far as they are declared. -/
def superclasses (t : ClassTable) (c : Class) : List Class := t.chainWithin (t.size + 1) c

/-- The fields that a scan of the class finds along its superclass chain, in closed classes as well. -/
def exposedFields (t : ClassTable) (c : Class) : List Field :=
  (chainFields (t.superclasses c)).filter c.exposes

/-- Those of them that each closed class of the chain declares. -/
def closedFields (t : ClassTable) (c : Class) : List (List Field) :=
  ((t.superclasses c).filter (!·.accessible)).map (·.instanceFields.filter c.exposes)

/-- The fields of open classes are the same, so those of closed classes decide. -/
theorem filter_chainFields_of_masked {exposed : Field → Bool} {cs ds : List Class}
    (h : cs.map Class.masked = ds.map Class.masked)
    (hclosed : (cs.filter (!·.accessible)).map (·.instanceFields.filter exposed) =
      (ds.filter (!·.accessible)).map (·.instanceFields.filter exposed)) :
    (chainFields cs).filter exposed = (chainFields ds).filter exposed := by
  induction cs generalizing ds with
  | nil =>
    cases ds with
    | nil => rfl
    | cons d ds => cases h
  | cons c cs ih =>
    cases ds with
    | nil => cases h
    | cons d ds =>
      obtain ⟨hcd, hrest⟩ := List.cons.inj h
      have hopen : c.accessible = d.accessible := Class.masked_membersOnly.alike hcd fun _ _ _ => rfl
      simp only [chainFields, List.flatMap_cons, List.filter_append] at ih ⊢
      cases ha : c.accessible with
      | true =>
        have hd : d.accessible = true := hopen.symm.trans ha
        have hfields : c.fields = d.fields := by
          rw [← Class.fields_masked ha, hcd, Class.fields_masked hd]
        rw [List.filter_cons_of_neg (by simp [ha]), List.filter_cons_of_neg (by simp [hd])] at hclosed
        rw [ih hrest hclosed, Class.instanceFields, Class.instanceFields, hfields]
      | false =>
        have hd : d.accessible = false := hopen.symm.trans ha
        rw [List.filter_cons_of_pos (by simp [ha]), List.filter_cons_of_pos (by simp [hd]), List.map_cons,
          List.map_cons] at hclosed
        obtain ⟨hhead, htail⟩ := List.cons.inj hclosed
        rw [ih hrest htail, hhead]

end ClassTable

namespace Scan

variable {S : Scan} {r r' : Registry} {ps qs : List Property} {f : Field} {fields : List Field}

theorem exposes_eq (S : Scan) (f : Field) :
    S.owner.exposes f = (!f.modifiers.isNative && S.isVisible f) := rfl

theorem addField_of_hidden (h : S.owner.exposes f = false) (ps : List Property) :
    S.addField ps f = pure ps := by
  have hskip : (f.modifiers.isNative || hasProperty ps f.name || !S.isVisible f) = true := by
    rw [exposes_eq] at h
    cases hnative : f.modifiers.isNative with
    | true => rfl
    | false =>
      rw [hnative] at h
      rw [show S.isVisible f = false from h, Bool.not_false, Bool.or_true]
  unfold addField
  rw [if_pos hskip]

/-- Only exposed fields count. -/
theorem foldlM_addField (fields : List Field) (ps : List Property) :
    fields.foldlM S.addField ps = (fields.filter S.owner.exposes).foldlM S.addField ps := by
  rw [List.foldlM_filter]
  congr 1
  funext ps f
  split
  · rfl
  · next h => exact addField_of_hidden (by simpa using h) ps

/-- A property that stands for a field says so. -/
theorem Source.isOfField {p : Property} (h : S.Source [] fields p) :
    p.isOfField = true ∧ ∃ f ∈ fields, f.name = p.name := by
  cases h with
  | accessors pair hpair => cases hpair
  | holder f hf hname haccess =>
    exact ⟨by unfold Property.isOfField; rw [haccess], f, hf, hname.symm⟩
  | field f hf hname haccess =>
    refine ⟨?_, f, hf, hname.symm⟩
    unfold slotAccess at haccess
    unfold Property.isOfField
    split at haccess
    · rw [haccess]
    · split at haccess <;> rw [haccess]

/-- Accessor pairs stand for no field. -/
theorem addAccessorPairs_filter {types : List Class} {pairs : List AccessorPair}
    (h : S.addAccessorPairs types pairs r = .ok ps r') :
    ps.filter (!·.isOfField) = ps := by
  refine List.filter_eq_self.2 fun p hp => ?_
  cases (addAccessorPairs_sourced h (List.Subset.refl _) []).source p hp with
  | accessors pair _ _ getter setter haccess =>
    unfold Property.isOfField
    rw [haccess]
    rfl
  | holder f hf => cases hf
  | field f hf => cases hf

/-- Fields add properties that stand for them, and take none away. -/
theorem fields_added (h : fields.foldlM S.addField ps r = .ok qs r') :
    qs.filter (!·.isOfField) = ps.filter (!·.isOfField) ∧
      ∀ q ∈ qs, q ∈ ps ∨ ∃ f ∈ fields, f.name = q.name := by
  refine foldlM_induct (f := S.addField) (P := fun qs : List Property =>
    qs.filter (!·.isOfField) = ps.filter (!·.isOfField) ∧ ∀ q ∈ qs, q ∈ ps ∨ ∃ f ∈ fields, f.name = q.name)
    (fun f hf qs₁ s₁ qs₂ s₂ ⟨hsame, horigin⟩ hstep => ?_) ⟨rfl, fun q hq => .inl hq⟩ h
  rcases addField_eq_ok [] hf hstep with rfl | ⟨p, hp, rfl⟩
  · exact ⟨hsame, horigin⟩
  · obtain ⟨hfield, g, hg, hname⟩ := hp.isOfField
    refine ⟨by rw [insertProperty_filter (by rw [hfield]; rfl), hsame], fun q hq => ?_⟩
    rcases mem_insertProperty hq with rfl | hq
    · exact .inr ⟨g, hg, hname⟩
    · exact horigin q hq

/-- A name that is taken stays taken. -/
theorem names_kept (hf : f ∈ fields) (h : S.addField ps f r = .ok qs r') {name : String}
    (hname : ∃ p ∈ ps, p.name = name) : ∃ q ∈ qs, q.name = name := by
  obtain ⟨p, hp, hname⟩ := hname
  rcases addField_eq_ok [] hf h with rfl | ⟨q, -, rfl⟩
  · exact ⟨p, hp, hname⟩
  · exact ⟨p, mem_insertProperty_of_mem hp, hname⟩

/-- An exposed field that is not final has a property of its name. -/
theorem addField_named (hf : S.owner.exposes f = true)
    (hkept : f.isFinal = false ∨ S.owner.isRecord = true) (h : S.addField ps f r = .ok qs r') :
    ∃ q ∈ qs, q.name = f.name := by
  rw [exposes_eq] at hf
  obtain ⟨hnative, hvisible⟩ := Bool.and_eq_true_iff.1 hf
  unfold addField at h
  split at h
  · next hskip =>
    rw [Bool.not_eq_true'] at hnative
    have htaken : hasProperty ps f.name = true := by simpa [hvisible, hnative] using hskip
    cases h
    obtain ⟨q, hq, hname⟩ := List.any_eq_true.1 htaken
    exact ⟨q, hq, of_decide_eq_true hname⟩
  · obtain ⟨p?, r₁, hp, hlast⟩ := bind_eq_ok_iff.1 h
    obtain ⟨ty, r₂, -, hstep⟩ := fieldProperty?_step hp
    cases hstep with
    | held _ p hheld =>
      cases hlast
      obtain ⟨args, held, s, model, -, -, -, rfl⟩ := holderProperty_eq_ok hheld
      exact name_mem_insertProperty _ ps
    | skipped _ _ _ _ hskip =>
      rcases hkept with hkept | hkept
      · rw [hskip.2.1] at hkept; cases hkept
      · rw [hskip.2.2] at hkept; cases hkept
    | slotted =>
      cases hlast
      exact name_mem_insertProperty _ ps

/-- Every exposed field that is not final has a property of its name, though perhaps not one of its own. -/
theorem fields_named (hfields : ∀ f ∈ fields, S.owner.exposes f = true)
    (h : fields.foldlM S.addField ps r = .ok qs r') :
    ∀ f ∈ fields, f.isFinal = false ∨ S.owner.isRecord = true → ∃ q ∈ qs, q.name = f.name := by
  refine foldlM_history (f := S.addField) (P := fun done qs _ => ∀ f ∈ done,
    f.isFinal = false ∨ S.owner.isRecord = true → ∃ q ∈ qs, q.name = f.name)
    (fun done f hf qs₁ s₁ qs₂ s₂ hdone hstep g hg hkept => ?_) [] (fun f hf => by cases hf) h
  rcases List.mem_append.1 hg with hg | hg
  · exact names_kept hf hstep (hdone g hg hkept)
  · cases List.mem_singleton.1 hg
    exact addField_named (hfields f hf) hkept hstep

/-- The accessor pairs, then the exposed fields of the superclass chain, which is the same in any later table. -/
theorem run_exposed (hv : r.Valid) (hfound : r.classes.find? S.owner.id = some S.owner)
    (h : S.run r = .ok ps r') {t : ClassTable} (ht : r'.classes.Within t) :
    ∃ types ps₁ r₁ r₂, r.classes.supertypes S.owner.id = .ok types ∧
      S.addAccessorPairs types (r.order.arrange (accessorPairs (types.flatMap (·.accessors S.config)))) r =
        .ok ps₁ r₁ ∧
      t.superclasses S.owner = r₁.classes.superclasses S.owner ∧
      (t.exposedFields S.owner).foldlM S.addField ps₁ r₁ = .ok ps r₂ := by
  obtain ⟨types, ps₁, r₁, r₂, htypes, hpairs, hfields, hlast⟩ := run_eq_ok h
  obtain ⟨hv₁, hg₁, hcached⟩ := (addAccessorPairs_keeps types _).of_ok hv hpairs
  obtain ⟨chain, hchain, hfold⟩ := addFields_eq_ok hfields
  have hgrown := ((addFields_keeps hcached).of_ok hv₁ hfields).2.1.trans hlast
  have hwithin : r₁.classes.Within t := Within.trans _ _ _ hgrown.within ht
  have hlater : t.superclassChain S.owner = .ok chain :=
    superclassChain_of_chainFrom (hwithin _ _ (hg₁.within _ _ hfound))
      (Within.chainFrom hwithin (Nat.le_refl _) hchain)
  have hmid : r₁.classes.superclasses S.owner = chain := chainWithin_eq_of_chainFrom hchain
  have hend : t.superclasses S.owner = chain := chainWithin_eq_of_chainFrom hlater
  rw [foldlM_addField] at hfold
  exact ⟨types, ps₁, r₁, r₂, htypes, hpairs, hend.trans hmid.symm, by
    rw [ClassTable.exposedFields, hend]; exact hfold⟩

end Scan

/-! ## Models in new registries -/

namespace Registry

/-- A new registry over a class table. -/
def newOver (config : Config) (codecs : CodecTable) (order : VisitOrder) (t : ClassTable) : Registry :=
  { new config with classes := t, codecs, order }

theorem newOver_valid (config : Config) (codecs : CodecTable) (order : VisitOrder) (t : ClassTable) :
    (newOver config codecs order t).Valid where
  place _ _ h := by cases h
  cached _ h := by cases h
  entry _ h := by cases h
  owned _ _ h := by cases h
  closed _ _ h := by cases h

theorem newOver_outside {config : Config} {codecs : CodecTable} {order : VisitOrder} {t u : ClassTable}
    (h : t.SameOpen u) :
    (newOver config codecs order t).outside = (newOver config codecs order u).outside :=
  (Outside.mk.injEq ..).mpr ⟨h, rfl, rfl, rfl, rfl, rfl⟩

end Registry

/-- The first lookup in a new registry over the table answers the model, which then has the contents. -/
structure FirstModel (config : Config) (codecs : CodecTable) (order : VisitOrder) (t : ClassTable)
    (ty : TypeExpr) (m : Model) (k : Contents) (r : Registry) : Prop where
  answer : Registry.ofType ty (newOver config codecs order t) = .ok m r
  contents : r.contents? m = some k

/-- The fields that the scan for a model finds; a model of another kind has none. -/
def Model.exposedFields (m : Model) (t : ClassTable) : List Field :=
  if m.kind = .object ∨ m.kind = .generic then t.exposedFields m.cls else []

theorem Model.exposes_of_mem {m : Model} {t : ClassTable} {f : Field} (h : f ∈ m.exposedFields t) :
    m.cls.exposes f = true := by
  unfold Model.exposedFields at h
  split at h
  · exact (List.mem_filter.1 h).2
  · cases h

/-- Where the closed classes of the chains expose the same fields, the scans find the same fields. -/
theorem Model.exposedFields_of_masked {m n : Model} {t u : ClassTable} (hmn : m.masked = n.masked)
    (hclasses : (t.superclasses m.cls).map Class.masked = (u.superclasses n.cls).map Class.masked)
    (hclosed : t.closedFields m.cls = u.closedFields n.cls) : m.exposedFields t = n.exposedFields u := by
  obtain ⟨-, -, -, hcls, hkind, -⟩ := Model.mk.inj hmn
  have hexposes : m.cls.exposes = n.cls.exposes := by
    unfold Class.exposes
    rw [Class.isRecord_of_masked hcls]
  unfold ClassTable.closedFields at hclosed
  rw [← hexposes] at hclosed
  unfold Model.exposedFields ClassTable.exposedFields
  rw [hkind, ← hexposes, filter_chainFields_of_masked hclasses hclosed]

namespace FirstModel

variable {config : Config} {codecs : CodecTable} {order : VisitOrder} {t u : ClassTable} {ty : TypeExpr}
  {m n : Model} {k l : Contents} {r s : Registry}

/-- The lookup found the model and gave it its contents, which no other lookup can have done. -/
theorem built (h : FirstModel config codecs order t ty m k r) :
    ∃ r₁ r₂, modelOf ty (newOver config codecs order t) = .ok m r₁ ∧ r₁.Valid ∧ m ∈ r₁.models ∧
      m.build r₁ = .ok k r₂ ∧ r₂.classes = r.classes := by
  obtain ⟨r₁, c, hm, hc⟩ := ofType_stages h.answer
  obtain ⟨hv, hg, hin⟩ := (modelOf_keeps ty).of_ok (newOver_valid config codecs order t) hm
  have hnone : r₁.contents? m = none := by
    unfold Registry.contents?
    rw [hg.contents]
    rfl
  obtain rfl : c = k := Option.some.inj ((Model.getContents_ok hc).symm.trans h.contents)
  rcases Model.getContents_cases m r₁ with ⟨c', hc', -⟩ | ⟨-, c', r₂, hbuild, hc'⟩ | ⟨-, e, r₂, -, hc'⟩
  · rw [hnone] at hc'; cases hc'
  · rw [hc] at hc'
    cases hc'
    exact ⟨r₁, r₂, hm, hv, hin, hbuild, rfl⟩
  · rw [hc] at hc'; cases hc'

/-- Without a scan there are no properties. -/
theorem unscanned (h : FirstModel config codecs order t ty m k r)
    (hkind : ¬(m.kind = .object ∨ m.kind = .generic)) : k.properties = [] := by
  obtain ⟨r₁, r₂, -, -, -, hbuild, -⟩ := h.built
  exact Model.build_unscanned hkind hbuild

/-- The parts of the scan for a model: its accessor pairs give `ps`, to which the exposed fields add theirs. -/
theorem scanned (h : FirstModel config codecs order t ty m k r)
    (hkind : m.kind = .object ∨ m.kind = .generic) :
    ∃ found parameters start types ps mid last, modelOf ty (newOver config codecs order t) = .ok m found ∧
      m.argumentModels found = .ok parameters start ∧
      start.classes.supertypes m.cls.id = .ok types ∧
      Scan.addAccessorPairs ⟨m.cls, m.type, start.config⟩ types
        (start.order.arrange (accessorPairs (types.flatMap (·.accessors start.config)))) start =
          .ok ps mid ∧
      r.classes.superclasses m.cls = mid.classes.superclasses m.cls ∧
      (m.exposedFields r.classes).foldlM (Scan.addField ⟨m.cls, m.type, start.config⟩) ps mid =
        .ok k.properties last := by
  obtain ⟨found, r₂, hm, hv, hin, hbuild, hclasses⟩ := h.built
  obtain ⟨parameters, start, r₃, hparameters, hrun, hlast⟩ := Model.build_scan hkind hbuild
  have hentry := hv.entry m hin
  obtain ⟨hv', hg, -⟩ := (Model.argumentModels_keeps hentry.resolved).of_ok hv hparameters
  have hfound : start.classes.find? m.cls.id = some m.cls := by
    have hcls := hentry.cls
    rw [← find?_id hcls] at hcls
    exact hg.within _ _ hcls
  obtain ⟨types, ps, mid, last, htypes, hpairs, hchain, hfields⟩ :=
    Scan.run_exposed hv' hfound hrun (hclasses ▸ hlast.within)
  refine ⟨found, parameters, start, types, ps, mid, last, hm, hparameters, htypes, hpairs, hchain, ?_⟩
  unfold Model.exposedFields
  rw [if_pos hkind]
  exact hfields

/-- The two models differ in their classes at most, and there in members of closed classes. -/
theorem alike (htu : t.SameOpen u) (h : FirstModel config codecs order t ty m k r)
    (h' : FirstModel config codecs order u ty n l s) : m.masked = n.masked := by
  obtain ⟨r₁, -, hm, -⟩ := h.built
  obtain ⟨s₁, -, hn, -⟩ := h'.built
  exact ((modelOf_indistinct ty).of_ok (newOver_outside htu) hm hn).1

end FirstModel

/-- Name and value type. -/
def Property.signature (p : Property) : String × TypeExpr := (p.name, p.model.type)

theorem map_signature {ps qs : List Property} (h : ps.map Property.masked = qs.map Property.masked) :
    ps.map Property.signature = qs.map Property.signature := by
  have hmap : ∀ ps : List Property,
      ps.map Property.signature = (ps.map Property.masked).map Property.signature := by
    intro ps
    rw [List.map_map]
    rfl
  rw [hmap, h, ← hmap]

/-! ## Members of closed classes -/

/-- Two tables differ in methods and fields of closed classes only, and the models of a type are initialized
over each. They have the same type and kind, and the properties that stand for accessors have the same names
and value types. Any other property is named after a field that the scan found on the superclass chain,
whether the class of that field is closed or not, and each such field that is not final, or is one of a
record, has a property of its name. When the closed classes of the chain expose the same fields, as they do
where there are none, all properties have the same names and value types. -/
theorem closed_class_members {config : Config} {codecs : CodecTable} {order : VisitOrder} {t u : ClassTable}
    (htu : t.SameOpen u) {ty : TypeExpr} {m n : Model} {k l : Contents} {r s : Registry}
    (hm : FirstModel config codecs order t ty m k r) (hn : FirstModel config codecs order u ty n l s) :
    m.type = n.type ∧ m.kind = n.kind ∧
      (k.properties.filter (!·.isOfField)).map Property.signature =
        (l.properties.filter (!·.isOfField)).map Property.signature ∧
      (∀ p ∈ k.properties, p.isOfField = true → ∃ f ∈ m.exposedFields r.classes, f.name = p.name) ∧
      (∀ f ∈ m.exposedFields r.classes, f.isFinal = false ∨ m.cls.isRecord = true →
        ∃ p ∈ k.properties, p.name = f.name) ∧
      (r.classes.closedFields m.cls = s.classes.closedFields n.cls →
        k.properties.map Property.signature = l.properties.map Property.signature) := by
  have hmn := hm.alike htu hn
  obtain ⟨-, -, htype, hcls, hkinds, -⟩ := Model.mk.inj hmn
  refine ⟨htype, hkinds, ?_⟩
  by_cases hkind : m.kind = .object ∨ m.kind = .generic
  · obtain ⟨found, parameters, start, types, ps, mid, last, hmodel, hparameters, htypes, hpairs, hchain,
      hfields⟩ := hm.scanned hkind
    obtain ⟨found', parameters', start', types', ps', mid', last', hmodel', hparameters', htypes', hpairs',
      hchain', hfields'⟩ := hn.scanned (hkinds ▸ hkind)
    -- up to the first field both lookups go the same way
    have hfound := ((modelOf_indistinct ty).of_ok (newOver_outside htu) hmodel hmodel').2
    have hstart := ((argumentModels_indistinct hmn).of_ok hfound hparameters hparameters').2
    rw [← htype, ← config_of_outside hstart] at hpairs' hfields'
    obtain ⟨hps, hmid⟩ := Scan.pairs_alike hcls m.type start.config hstart htypes htypes' hpairs hpairs'
    obtain ⟨hkept, horigin⟩ := Scan.fields_added hfields
    have hpure := Scan.addAccessorPairs_filter hpairs
    refine ⟨?_, fun p hp hfield => ?_, ?_, fun hsame => ?_⟩
    · rw [hkept, (Scan.fields_added hfields').1, hpure, Scan.addAccessorPairs_filter hpairs']
      exact map_signature hps
    · refine (horigin p hp).resolve_left fun hin => ?_
      have hnot := List.filter_eq_self.1 hpure p hin
      rw [hfield] at hnot
      cases hnot
    · exact Scan.fields_named (fun f => Model.exposes_of_mem) hfields
    · have hclasses : (r.classes.superclasses m.cls).map Class.masked =
          (s.classes.superclasses n.cls).map Class.masked := by
        rw [hchain, hchain']
        exact chainWithin_alike Class.masked_membersOnly (sameOpen_of_outside hmid) hcls
      rw [← Model.exposedFields_of_masked hmn hclasses hsame] at hfields'
      exact map_signature ((Indistinct.foldlM (fun f _ _ _ => Scan.addField_indistinct hcls m.type start.config f)
        hps).of_ok hmid hfields hfields').1
  · have hnone : m.exposedFields r.classes = [] := if_neg hkind
    rw [hm.unscanned hkind, hn.unscanned (hkinds ▸ hkind), hnone]
    exact ⟨rfl, List.forall_mem_nil _, List.forall_mem_nil _, fun _ => rfl⟩

/-- What a lookup shows of its model: names and value types, and the fields found in closed classes. -/
def firstLook (ty : TypeExpr) : RegistryM (List (String × TypeExpr) × List (List Field)) := do
  let m ← Registry.ofType ty
  let ps ← m.properties
  return (ps.map Property.signature, (← get).classes.closedFields m.cls)

theorem FirstModel.of_look {config : Config} {codecs : CodecTable} {order : VisitOrder} {t : ClassTable}
    {ty : TypeExpr} {shown : List (String × TypeExpr)} {fields : List (List Field)}
    (h : outcome (firstLook ty) (newOver config codecs order t) = .ok (shown, fields)) :
    ∃ m k r, FirstModel config codecs order t ty m k r ∧ k.properties.map Property.signature = shown ∧
      r.classes.closedFields m.cls = fields := by
  obtain ⟨m, r, hm, hrest⟩ := bind_eq_ok_iff.1 (eq_ok_of_outcome h)
  obtain ⟨r₁, k, -, hk⟩ := ofType_stages hm
  have hcontents := Model.getContents_ok hk
  rw [bind_of_ok (Model.properties_of_initialized hcontents)] at hrest
  obtain ⟨hshown, -⟩ := EStateM.Result.ok.inj hrest
  obtain ⟨hnames, hfields⟩ := Prod.mk.inj hshown
  exact ⟨m, k, r, ⟨hm, hcontents⟩, hnames, hfields⟩

/-- A closed class, and an open one that extends it. -/
def safeTable (vault : Declaration) : ClassTable :=
  let safe := (((Declaration.plain ⟨"Safe"⟩).withSuperclass (.named vault.id)).accessor "label"
    (.named .string)).publicField "size" (.named .string)
  ⟨safe.draft :: vault.draft.normalize :: builtin.classes⟩

/-- The closed class has a private field with a getter and a setter in one table and no members in the other. -/
theorem closed_class_members_safe :
    let vault := (Declaration.plain ⟨"Vault"⟩).markClosed
    let t := safeTable (vault.accessor "code" (.named .string))
    let u := safeTable vault
    t.SameOpen u ∧ ∃ m n k l r s, FirstModel {} .builtin .appearance t (.named ⟨"Safe"⟩) m k r ∧
      FirstModel {} .builtin .appearance u (.named ⟨"Safe"⟩) n l s ∧
      k.properties.map Property.signature = l.properties.map Property.signature ∧
      k.properties.map Property.signature = [("label", .named .string), ("size", .named .string)] := by
  intro vault t u
  have htu : t.SameOpen u := rfl
  have hlook : outcome (firstLook (.named ⟨"Safe"⟩)) (newOver {} .builtin .appearance t) =
      .ok ([("label", .named .string), ("size", .named .string)], [[]]) := by decide +kernel
  have hlook' : outcome (firstLook (.named ⟨"Safe"⟩)) (newOver {} .builtin .appearance u) =
      .ok ([("label", .named .string), ("size", .named .string)], [[]]) := by decide +kernel
  obtain ⟨m, k, r, hm, hshown, hfields⟩ := FirstModel.of_look hlook
  obtain ⟨n, l, s, hn, -, hfields'⟩ := FirstModel.of_look hlook'
  exact ⟨htu, m, n, k, l, r, s, hm, hn,
    (closed_class_members htu hm hn).2.2.2.2.2 (hfields.trans hfields'.symm), hshown⟩

/-- The closed class has a public field in one table and no members in the other: the field is a property of the
closed class and of the open one that extends it. -/
theorem closed_field_shown :
    let vault := (Declaration.plain ⟨"Vault"⟩).markClosed
    let t := safeTable (vault.publicField "code" (.named .string))
    let u := safeTable vault
    t.SameOpen u ∧ ∀ id ∈ [⟨"Vault"⟩, ⟨"Safe"⟩], ∃ m n k l r s,
      FirstModel {} .builtin .appearance t (.named id) m k r ∧
      FirstModel {} .builtin .appearance u (.named id) n l s ∧
      ("code", .named .string) ∈ k.properties.map Property.signature ∧
      k.properties.map Property.signature ≠ l.properties.map Property.signature := by
  intro vault t u
  have differ : ∀ id shown fields shown' fields',
      outcome (firstLook (.named id)) (newOver {} .builtin .appearance t) = .ok (shown, fields) →
      outcome (firstLook (.named id)) (newOver {} .builtin .appearance u) = .ok (shown', fields') →
      ("code", .named .string) ∈ shown → shown ≠ shown' → ∃ m n k l r s,
        FirstModel {} .builtin .appearance t (.named id) m k r ∧
        FirstModel {} .builtin .appearance u (.named id) n l s ∧
        ("code", .named .string) ∈ k.properties.map Property.signature ∧
        k.properties.map Property.signature ≠ l.properties.map Property.signature := by
    intro id shown fields shown' fields' hlook hlook' hin hne
    obtain ⟨m, k, r, hm, hshown, -⟩ := FirstModel.of_look hlook
    obtain ⟨n, l, s, hn, hshown', -⟩ := FirstModel.of_look hlook'
    exact ⟨m, n, k, l, r, s, hm, hn, hshown ▸ hin, hshown ▸ hshown' ▸ hne⟩
  refine ⟨rfl, fun id hid => ?_⟩
  let code : Field := ⟨"code", .named .string, .publicOnly, false⟩
  obtain rfl | rfl : id = ⟨"Vault"⟩ ∨ id = ⟨"Safe"⟩ := by simpa using hid
  · exact differ ⟨"Vault"⟩ [("code", .named .string)] [[code]] [] [[]] (by decide +kernel)
      (by decide +kernel) (by simp) (by simp)
  · exact differ ⟨"Safe"⟩ [("code", .named .string), ("label", .named .string), ("size", .named .string)]
      [[code]] [("label", .named .string), ("size", .named .string)] [[]] (by decide +kernel)
      (by decide +kernel) (by simp) (by simp)

end Introspect
