import Introspect.Classes.Declaration
import Introspect.Proofs.Classes.Mentions
import Introspect.Proofs.Models.Declarations
import Introspect.Proofs.Models.FieldOrigins
import Introspect.Proofs.Models.Keys
import Introspect.Proofs.Models.RecordCopy

/-!
What the fields of a new object hold.

A new object has in each slot the default of the type that the nearest field of that name was declared with.
The property of that name has the model of a resolved type, perhaps of another field: type variables are bound
there, hidden fields passed over. The two agree where the nearest field names a class itself.

* `addDefaults_default`, `addDefaults_missing`: a slot holds the default of the first field of its name.
* `instantiate_slots`: the slots of a new object.
* `default_fits_iff`: when a default is a value for a model that is not nullable.
* `fresh_object_fits`: when a new object holds such values.
-/

namespace Introspect

open Registry ClassTable

namespace ClassTable

variable {t : ClassTable} {h h' : Heap}

/-! ## Defaults -/

section Defaults

variable {ty : TypeExpr} {d : Class}

theorem defaultValue_primitive {kind : PrimitiveKind} (hd : ty.raw?.bind t.find? = some d)
    (hk : d.kind = .primitive kind false) : t.defaultValue ty h = .ok (.zero kind) h := by
  unfold defaultValue
  simp only [hd, hk]
  rfl

theorem defaultValue_enumeration {constant : String} {rest : List String}
    (hd : ty.raw?.bind t.find? = some d) (hk : d.kind = .enumeration (constant :: rest)) :
    t.defaultValue ty h = .ok (.enumConstant d.id constant) h := by
  unfold defaultValue
  simp only [hd, hk]
  rfl

/-- A default is the zero of a primitive, the first constant of an enumeration, a holder or null. -/
inductive Default (t : ClassTable) (ty : TypeExpr) : Value → Prop
  | zero (d : Class) (kind : PrimitiveKind) (hd : ty.raw?.bind t.find? = some d)
      (hk : d.kind = .primitive kind false) : Default t ty (.zero kind)
  | constant (d : Class) (constant : String) (rest : List String) (hd : ty.raw?.bind t.find? = some d)
      (hk : d.kind = .enumeration (constant :: rest)) : Default t ty (.enumConstant d.id constant)
  | holder (i : Nat) : Default t ty (.holder i)
  | null : Default t ty .null

theorem defaultValue_default {v : Value} (hrun : t.defaultValue ty h = .ok v h') : t.Default ty v := by
  have other {d : Class} : (if d.id = .holder then allocHolder .null else pure .null : HeapM Value) h =
      .ok v h' → t.Default ty v := by
    intro hrun
    split at hrun
    · cases hrun
      exact .holder _
    · cases hrun
      exact .null
  unfold defaultValue at hrun
  cases hd : ty.raw?.bind t.find? with
  | none =>
    simp only [hd] at hrun
    cases hrun
    exact .null
  | some d =>
    cases hk : d.kind with
    | primitive kind nullable =>
      simp only [hd, hk] at hrun
      cases nullable with
      | false =>
        cases hrun
        exact .zero d kind hd hk
      | true => exact other hrun
    | enumeration constants =>
      simp only [hd, hk] at hrun
      cases constants with
      | nil =>
        cases hrun
        exact .null
      | cons constant rest =>
        cases hrun
        exact .constant d constant rest hd hk
    | record | interface | plain | array component =>
      simp only [hd, hk] at hrun
      exact other hrun

theorem Default.ne_object {v : Value} (hv : t.Default ty v) (ref : Ref) : v ≠ .object ref := by
  cases hv with
  | zero d kind => cases kind <;> exact nofun
  | constant | holder | null => exact nofun

end Defaults

/-! ## Slots -/

/-- A slot that is there stays as it is. -/
theorem addDefaults_of_find? {slots slots' : Dict String Value} {fields : List Field} {name : String}
    {v : Value} (hfound : slots.find? name = some v) (hrun : t.addDefaults slots fields h = .ok slots' h') :
    slots'.find? name = some v := by
  induction fields generalizing slots h with
  | nil =>
    cases hrun
    exact hfound
  | cons f fs ih =>
    unfold addDefaults at hrun
    split at hrun
    · exact ih hfound hrun
    · next hnew =>
      obtain ⟨w, h₁, -, hrest⟩ := bind_eq_ok_iff.1 hrun
      refine ih ?_ hrest
      have hne : name ≠ f.name := by
        rintro rfl
        exact hnew (by simp [Dict.contains, hfound])
      rw [Dict.find?_insert_of_ne _ _ hne, hfound]

/-- What the slot of a name holds in the end: the default of the first field of that name. -/
inductive StartsWith (t : ClassTable) (fields : List Field) (slots : Dict String Value) (name : String) : Prop
  | missing (hfield : fields.find? (·.name = name) = none) (hslot : slots.find? name = none)
  | default (f : Field) (hfield : fields.find? (·.name = name) = some f) (h h' : Heap) (v : Value)
      (hdefault : t.defaultValue f.type h = .ok v h') (hslot : slots.find? name = some v)

/-- A name that no field has stays without a slot. -/
theorem addDefaults_missing {slots slots' : Dict String Value} {fields : List Field} {name : String}
    (hfree : slots.find? name = none) (hfield : fields.find? (·.name = name) = none)
    (hrun : t.addDefaults slots fields h = .ok slots' h') : slots'.find? name = none := by
  induction fields generalizing slots h with
  | nil =>
    cases hrun
    exact hfree
  | cons f fs ih =>
    obtain ⟨hne, hrest⟩ : f.name ≠ name ∧ fs.find? (·.name = name) = none := by
      simpa [List.find?_eq_none] using hfield
    unfold addDefaults at hrun
    split at hrun
    · exact ih hfree hrest hrun
    · obtain ⟨v, h₁, -, hrun⟩ := bind_eq_ok_iff.1 hrun
      exact ih (by rw [Dict.find?_insert_of_ne _ _ (Ne.symm hne), hfree]) hrest hrun

/-- The first field of a name gives the slot its default, made on the way from the one heap to the other. -/
theorem addDefaults_default {slots slots' : Dict String Value} {fields : List Field} {name : String} {f : Field}
    (hfree : slots.find? name = none) (hfield : fields.find? (·.name = name) = some f)
    (hrun : t.addDefaults slots fields h = .ok slots' h') :
    ∃ h₁ v h₂, h.Intact h₁ ∧ t.defaultValue f.type h₁ = .ok v h₂ ∧ h₂.Intact h' ∧
      slots'.find? name = some v := by
  induction fields generalizing slots h with
  | nil => cases hfield
  | cons g gs ih =>
    unfold addDefaults at hrun
    by_cases hname : g.name = name
    · subst hname
      rw [List.find?_cons_of_pos (by simp)] at hfield
      cases hfield
      rw [if_neg (by simp [Dict.contains, hfree])] at hrun
      obtain ⟨v, h₁, hdefault, hrest⟩ := bind_eq_ok_iff.1 hrun
      exact ⟨h, v, h₁, Heap.Intact.refl h, hdefault, (t.addDefaults_intact _ _).ok hrest,
        addDefaults_of_find? (Dict.find?_insert_self _ _ _) hrest⟩
    · rw [List.find?_cons_of_neg (by simpa using hname)] at hfield
      split at hrun
      · exact ih hfree hfield hrun
      · obtain ⟨v, h₁, hfirst, hrest⟩ := bind_eq_ok_iff.1 hrun
        have hkept : (slots.insert g.name v).find? name = none := by
          rw [Dict.find?_insert_of_ne _ _ (Ne.symm hname), hfree]
        obtain ⟨h₂, w, h₃, hbefore, hdefault, hafter, hslot⟩ := ih hkept hfield hrest
        have hmoved : h.Intact h₁ := (t.defaultValue_intact g.type).ok hfirst
        exact ⟨h₂, w, h₃, Heap.Intact.trans _ _ _ hmoved hbefore, hdefault, hafter, hslot⟩

theorem addDefaults_slot {slots slots' : Dict String Value} {fields : List Field} {name : String}
    (hfree : slots.find? name = none) (hrun : t.addDefaults slots fields h = .ok slots' h') :
    t.StartsWith fields slots' name := by
  cases hfield : fields.find? (·.name = name) with
  | none => exact .missing hfield (addDefaults_missing hfree hfield hrun)
  | some f =>
    obtain ⟨h₁, v, h₂, -, hdefault, -, hslot⟩ := addDefaults_default hfree hfield hrun
    exact .default f hfield h₁ h₂ v hdefault hslot

/-- A plain class gives an object that has the defaults of the fields of the superclass chain in its slots. -/
theorem instantiatePlain_slots {c : Class} {ref : Ref} (hnew : t.instantiatePlain c h = .ok (.object ref) h') :
    ∃ chain, t.superclassChain c = .ok chain ∧
      ∀ name, t.StartsWith (chainFields chain) (h'.slots ref) name := by
  obtain ⟨-, -, chain, slots, h₁, hchain, hslots, halloc⟩ := instantiatePlain_eq_object hnew
  cases halloc
  refine ⟨chain, hchain, fun name => ?_⟩
  have hsame : (h₁.objects.push slots)[h₁.objects.size]?.getD .empty = slots := by simp
  unfold Heap.slots
  rw [hsame]
  exact addDefaults_slot (Dict.find?_empty name) hslots

/-- So does every class that gives an object. -/
theorem instantiate_slots {id : ClassId} {ref : Ref} (hnew : t.instantiate id h = .ok (.object ref) h') :
    ∃ c chain, t.find? id = some c ∧ t.superclassChain c = .ok chain ∧
      ∀ name, t.StartsWith (chainFields chain) (h'.slots ref) name := by
  unfold instantiate at hnew
  obtain ⟨c, h₁, hlookup, hmade⟩ := bind_eq_ok_iff.1 hnew
  obtain ⟨hc, rfl⟩ := ofExcept_eq_ok_iff.1 hlookup
  have plain : t.instantiatePlain c h₁ = .ok (.object ref) h' → _ := fun hplain =>
    (instantiatePlain_slots hplain).imp fun chain hchain => And.intro (lookup_eq_ok_iff.1 hc) hchain
  refine ⟨c, ?_⟩
  cases hk : c.kind with
  | primitive kind nullable =>
    simp only [hk] at hmade
    cases kind <;> cases hmade
  | enumeration constants =>
    simp only [hk] at hmade
    exact absurd rfl ((defaultValue_default hmade).ne_object ref)
  | array component => simp only [hk] at hmade; cases hmade
  | interface => simp only [hk] at hmade; cases hmade
  | record | plain =>
    simp only [hk] at hmade
    split at hmade
    · cases hmade
    · exact plain hmade

/-! ## Built-in classes -/

/-- The supertypes of a built-in class are declared, and none of them is an enumeration. -/
theorem builtin_supertypes {id : ClassId} {b : Class} (hb : builtin.find? id = some b) :
    ∃ cs, builtin.supertypes id = .ok cs ∧
      ∀ d ∈ cs, ∃ e, builtin.find? d.id = some e ∧ e.isEnum = false := by
  have hall : builtin.classes.all fun b => (builtin.supertypes b.id).toOption.any fun cs =>
      cs.all fun d => (builtin.find? d.id).any fun e => !e.isEnum := by decide +kernel
  have hone := List.all_eq_true.1 hall b (mem_of_find? hb)
  rw [find?_id hb] at hone
  cases hcs : builtin.supertypes id with
  | error e => rw [hcs] at hone; cases hone
  | ok cs =>
    rw [hcs] at hone
    refine ⟨cs, rfl, fun d hd => ?_⟩
    obtain ⟨e, he, henum⟩ := (Option.any_eq_true ..).1 (List.all_eq_true.1 hone d hd)
    exact ⟨e, he, by simpa using henum⟩

/-- No value of a built-in class is one of an enumeration. -/
theorem not_assignable_from_builtin (ht : builtin.Within t) {id target : ClassId} {b c : Class}
    (hb : builtin.find? id = some b) (hc : t.find? target = some c) (henum : c.isEnum = true) :
    t.isAssignable target id = false := by
  obtain ⟨cs, hcs, hplain⟩ := builtin_supertypes hb
  have hdeclared : ∀ e, builtin.find? target = some e → e.isEnum = false → False := by
    intro e he hnot
    rw [ht _ _ he] at hc
    cases hc
    rw [henum] at hnot
    cases hnot
  rw [isAssignable_of_complete ht hcs]
  refine Bool.eq_false_iff.2 fun hassign => ?_
  unfold isAssignable at hassign
  split at hassign
  · next hsame =>
    obtain ⟨rest, rfl⟩ := supertypes_eq_cons hb hcs
    obtain ⟨e, he, hnot⟩ := hplain b List.mem_cons_self
    exact hdeclared e (by rw [hsame, ← find?_id hb]; exact he) hnot
  · simp only [hb] at hassign
    split at hassign
    · cases hassign
    · split at hassign
      · next hobject => exact hdeclared (.bare .object .plain) (by rw [hobject]; rfl) rfl
      · unfold hasSupertype at hassign
        simp only [hcs] at hassign
        obtain ⟨d, hd, hid⟩ := List.any_eq_true.1 hassign
        obtain ⟨e, he, hnot⟩ := hplain d hd
        exact hdeclared e (of_decide_eq_true hid ▸ he) hnot

end ClassTable

/-! ## Values that are accepted -/

/-- The values of the model are those of a primitive, or of an enumeration that has constants. -/
def Model.NeverNull (m : Model) : Prop :=
  (∃ kind, m.cls.kind = .primitive kind false) ∨ ∃ constant rest, m.cls.kind = .enumeration (constant :: rest)

/-- The type names a class itself, the default of which is a value of the model. -/
def StartsFit (t : ClassTable) (ty : TypeExpr) (m : Model) : Prop :=
  ∃ d, ty.raw?.bind t.find? = some d ∧
    ((∃ kind, d.kind = .primitive kind false ∧ m.cls.kind = .primitive kind false) ∨
      ((∃ constant rest, d.kind = .enumeration (constant :: rest)) ∧ m.cls.isEnum = true ∧
        t.isAssignable m.raw d.id = true))

/-- A default is a value for a model that is never null just when the type names a class of such values. -/
theorem default_fits_iff {r : Registry} {ty : TypeExpr} {m : Model} {v : Value} {h h' : Heap}
    (hbuiltin : builtin.Within r.classes) (hlive : r.live = true) (hcls : r.classes.find? m.raw = some m.cls)
    (hm : m.NeverNull) (hv : r.classes.defaultValue ty h = .ok v h') :
    (v.isNull = false ∧ r.accepts m v = true) ↔ StartsFit r.classes ty m := by
  constructor
  · rintro ⟨hnull, haccepted⟩
    have notBuiltin {id : ClassId} {b : Class} (hb : builtin.find? id = some b)
        (hrun : v.runtimeClass? = some id) (henum : m.cls.isEnum = true) : False := by
      have hassign := (accepts_enumeration hlive henum hrun).1 haccepted
      rw [not_assignable_from_builtin hbuiltin hb hcls henum] at hassign
      cases hassign
    cases defaultValue_default hv with
    | zero d kind hd hk =>
      refine ⟨d, hd, .inl ⟨kind, hk, ?_⟩⟩
      rcases hm with ⟨kind', hm⟩ | ⟨constant, rest, hm⟩
      · have hsame := (accepts_primitive hm hnull).1 haccepted
        rw [Value.zero_primitiveKind?] at hsame
        cases hsame
        exact hm
      · exact (notBuiltin (b := { Class.bare kind.wrapperId (.primitive kind true) with
            modifiers := publicFinal, superclass := some .object }) (by cases kind <;> rfl)
          (Value.zero_runtimeClass? kind) (by rw [Class.isEnum, hm])).elim
    | constant d constant rest hd hk =>
      refine ⟨d, hd, .inr ⟨⟨constant, rest, hk⟩, ?_⟩⟩
      rcases hm with ⟨kind, hm⟩ | ⟨constant', rest', hm⟩
      · cases (accepts_primitive hm hnull).1 haccepted
      · have henum : m.cls.isEnum = true := by rw [Class.isEnum, hm]
        exact ⟨henum, (accepts_enumeration hlive henum rfl).1 haccepted⟩
    | holder i =>
      rcases hm with ⟨kind, hm⟩ | ⟨constant, rest, hm⟩
      · cases (accepts_primitive hm hnull).1 haccepted
      · exact (@notBuiltin .holder _ rfl rfl (by rw [Class.isEnum, hm])).elim
    | null => cases hnull
  · rintro ⟨d, hd, ⟨kind, hk, hm⟩ | ⟨⟨constant, rest, hk⟩, henum, hassign⟩⟩
    · rw [defaultValue_primitive hd hk] at hv
      cases hv
      have hzero := Value.zero_isNull kind
      exact ⟨hzero, (accepts_primitive hm hzero).2 (Value.zero_primitiveKind? kind)⟩
    · rw [defaultValue_enumeration hd hk] at hv
      cases hv
      exact ⟨rfl, (accepts_enumeration hlive henum rfl).2 hassign⟩

/-! ## Models of field types -/

/-- The model of a type that names a class itself is one of that class, unless models of the class are those
of its superclass. -/
theorem modelFor_named {ty : TypeExpr} {raw : ClassId} {d : Class} {r r' : Registry} {m : Model}
    {t : ClassTable} (hraw : ty.raw? = some raw) (ht : r.classes.Within t) (hd : t.find? raw = some d)
    (hdirect : d.redirect? = none) (h : modelFor ty r = .ok m r') : m.raw = raw := by
  obtain ⟨n, hn⟩ : ∃ n, redirectionLimit = n + 1 := ⟨0xFFFFFF, rfl⟩
  unfold modelFor at h
  rw [hn] at h
  obtain ⟨raw', args, d', hparts, hlookup, hgo⟩ := modelWithin_succ_eq_ok h
  obtain rfl : raw = raw' := Option.some.inj (hraw.symm.trans (TypeExpr.raw?_of_parts? hparts))
  obtain rfl : d = d' := Option.some.inj (hd.symm.trans (ht _ _ (lookup_eq_ok_iff.1 hlookup)))
  rcases hgo with ⟨superclass, hredirect, -⟩ | ⟨-, hcached⟩
  · rw [hdirect] at hredirect
    cases hredirect
  · exact cachedModel_raw hcached

theorem raw?_of_resolve {ty site answer : TypeExpr} {raw : ClassId} {t t' : ClassTable}
    (hraw : ty.raw? = some raw) (h : ClassTable.resolve ty site t = .ok answer t') :
    answer.raw? = some raw := by
  unfold ClassTable.resolve at h
  cases ty with
  | named id =>
    cases h
    exact hraw
  | apply id args =>
    obtain ⟨as, -, rfl⟩ := resolveAt_apply_eq_ok h
    exact hraw
  | wildcard | var | array => cases hraw

/-- The type of the property's own field may name a class itself, the models of which are its own: then
defaults of that type are values of the property. -/
theorem Scan.MadeOf.startsFit {S : Scan} {f : Field} {ty : TypeExpr} {stage r : Registry} {p : Property}
    (hv : r.Valid) (h : S.MadeOf f ty stage p r) (hplain : p.isPlainField = true)
    (hm : p.model.NeverNull) {d : Class} (hd : f.type.raw?.bind r.classes.find? = some d)
    (hdirect : d.redirect? = none) : StartsFit r.classes f.type p.model := by
  obtain ⟨raw, hraw, hfound⟩ := Option.bind_eq_some_iff.1 hd
  have hheld : ∀ name, p.access ≠ .holder name := by
    intro name haccess
    rw [Property.isPlainField, haccess] at hplain
    cases hplain
  obtain ⟨r₁, r₂, hv₁, hmodel, he⟩ := h.answered hheld
  obtain ⟨-, hg, hcached⟩ := (modelFor_keeps (resolveAt_resolved h.type)).of_ok hv₁ hmodel
  have hname : p.model.raw = raw := modelFor_named (raw?_of_resolve hraw h.type)
    (Within.trans _ _ _ hg.within he.classes) hfound hdirect hmodel
  have hcls : p.model.cls = d := by
    have hentry := (hv.entry _ (he.models.subset hcached)).cls
    rw [show p.model.key.raw = raw from hname, hfound] at hentry
    exact (Option.some.inj hentry).symm
  refine ⟨d, hd, ?_⟩
  rcases hm with ⟨kind, hm⟩ | ⟨constant, rest, hm⟩
  · exact .inl ⟨kind, hcls ▸ hm, hm⟩
  · refine .inr ⟨⟨constant, rest, hcls ▸ hm⟩, by rw [Class.isEnum, hm], ?_⟩
    rw [hname, find?_id hfound]
    simp [isAssignable]

/-! ## New objects -/

/-- A lookup of a class answered a model, and an object of the class was made. -/
structure FreshObject (s : Store) (id : ClassId) (m : Model) (k : Contents) (ref : Ref) (s' : Store) : Prop where
  live : s'.registry.live = true
  lookup : Registry.of id s.registry = .ok m s'.registry
  contents : s'.registry.contents? m = some k
  made : s'.registry.classes.instantiate id s.heap = .ok (.object ref) s'.heap

/-- The property has a value on the object, and one that it accepts. -/
def ReadsFit (s : Store) (ref : Ref) (p : Property) : Prop :=
  ∃ v, getProperty (.object ref) (some p) s = .ok v s ∧ v.isNull = false ∧
    s.registry.accepts p.model v = true

/-- The field that gives the slot of a name its default: the nearest one along the superclass chain. -/
def slotField? (chain : List Class) (name : String) : Option Field :=
  (chainFields chain).find? (·.name = name)

/-- The answer of a lookup is a model of its class. -/
theorem ModelOf.of_lookup {config : Config} {ops : List Operation} {ty : TypeExpr} {m : Model} {k : Contents}
    {r : Registry} (hm : Registry.ofType ty (reached config ops).registry = .ok m r)
    (hk : r.contents? m = some k) : ModelOf r m.cls m k := by
  obtain ⟨concrete, c, start, found, hanswered⟩ := ofType_answered (reached_valid config ops) hm
  have hvalid : r.Valid := reached_ofType hm ▸ reached_valid config (ops ++ [.ofType ty])
  have hin := hanswered.step.there m rfl
  have hcls : r.classes.find? m.raw = some m.cls := (hvalid.entry m hin).cls
  have hid : m.raw = m.cls.id := (find?_id hcls).symm
  exact ⟨hid ▸ hcls, hin, hid, hk⟩

namespace FreshObject

variable {config : Config} {ops : List Operation} {id : ClassId} {m : Model} {k : Contents} {ref : Ref}
  {s' : Store} {p : Property}

/-- The lookup makes no difference to how the registry is reached. -/
theorem registry_eq (h : FreshObject (reached config ops) id m k ref s') :
    s'.registry = (reached config (ops ++ [.ofType (.named id)])).registry :=
  (reached_ofType h.lookup).symm

theorem valid (h : FreshObject (reached config ops) id m k ref s') : s'.registry.Valid :=
  h.registry_eq ▸ reached_valid config (ops ++ [.ofType (.named id)])

theorem modelOf (h : FreshObject (reached config ops) id m k ref s') : ModelOf s'.registry m.cls m k :=
  .of_lookup h.lookup h.contents

/-- A plain property of the model was made of a field, and its slot is read. -/
theorem origin (h : FreshObject (reached config ops) id m k ref s') (hp : p ∈ k.properties)
    (hplain : p.isPlainField = true) :
    (∃ chain, s'.registry.classes.superclassChain m.cls = .ok chain ∧ ∃ f ∈ chainFields chain, ∃ ty stage,
      Scan.MadeOf ⟨m.cls, m.type, config⟩ f ty stage p s'.registry) ∧
      getProperty (.object ref) (some p) s' = .ok (s'.heap.slotOrNull ref p.name) s' := by
  have hfield : p.isOfField = true := by
    unfold Property.isPlainField at hplain
    unfold Property.isOfField
    split at hplain <;> simp_all
  have hmodel := h.modelOf
  rw [h.registry_eq] at hmodel
  obtain ⟨chain, hchain, f, hf, ty, stage, hmade⟩ := hmodel.origin_field hp hfield
  rw [← h.registry_eq] at hchain hmade
  refine ⟨⟨chain, hchain, f, hf, ty, stage, hmade⟩, getProperty_plain ?_ ref s'⟩
  have hslotted := hmade.slotted fun hheld => by
    rw [Property.isPlainField, hmade.held hheld] at hplain
    cases hplain
  rw [hslotted.1, Scan.slotAccess, hmade.name]
  split
  · exact .inr (.inr rfl)
  · split
    · exact .inr (.inl rfl)
    · exact .inl rfl

/-- What a plain property reads is the default of the nearest field of its name. -/
theorem readsFit_iff (h : FreshObject (reached config ops) id m k ref s') (hp : p ∈ k.properties)
    (hplain : p.isPlainField = true) (hm : p.model.NeverNull) {chain : List Class}
    (hslots : s'.registry.classes.StartsWith (chainFields chain) (s'.heap.slots ref) p.name) :
    ReadsFit s' ref p ↔ ∃ g, slotField? chain p.name = some g ∧
      StartsFit s'.registry.classes g.type p.model := by
  have hread := (h.origin hp hplain).2
  have hbuiltin : builtin.Within s'.registry.classes := by
    rw [h.registry_eq]
    exact (run_later (s := Store.new config) (new_valid config) (ops ++ [.ofType (.named id)])).2.classes
  have hcached : p.model ∈ s'.registry.models :=
    h.valid.closed m.id k h.contents p.model (List.mem_append_left _ (List.mem_map_of_mem hp))
  have hcls := (h.valid.entry p.model hcached).cls
  unfold slotField?
  cases hslots with
  | missing hfield hslot =>
    rw [hfield]
    constructor
    · rintro ⟨v, hv, hnull, -⟩
      rw [hread] at hv
      cases hv
      rw [Heap.slotOrNull, Heap.slot?, hslot] at hnull
      cases hnull
    · rintro ⟨g, hg, -⟩
      cases hg
  | default g hfield h₁ h₂ v hdefault hslot =>
    have hvalue : s'.heap.slotOrNull ref p.name = v := by rw [Heap.slotOrNull, Heap.slot?, hslot]; rfl
    have hfits := default_fits_iff hbuiltin h.live hcls hm hdefault
    rw [hvalue] at hread
    constructor
    · rintro ⟨w, hw, haccepted⟩
      rw [hread] at hw
      cases hw
      exact ⟨g, hfield, hfits.1 haccepted⟩
    · rintro ⟨g', hg', hfit⟩
      cases hfield.symm.trans hg'
      exact ⟨v, hread, hfits.2 hfit⟩

end FreshObject

/-- An object of a class for which a lookup answers a model. A property that keeps its value in a slot and is
never null has a value on the new object just when the nearest field of its name is declared with a class
itself, one of such values. So it is where the property was made of that nearest field, if the type of the
field names a class, not a type variable, a wildcard or an array, and the models of that class are its own. -/
theorem fresh_object_fits (config : Config) (ops : List Operation) {id : ClassId} {m : Model} {k : Contents}
    {ref : Ref} {s' : Store} (h : FreshObject (reached config ops) id m k ref s') :
    let t := s'.registry.classes
    ∃ c chain, t.find? id = some c ∧ t.superclassChain c = .ok chain ∧
      ∀ p ∈ k.properties, p.isPlainField = true → p.model.NeverNull →
        (ReadsFit s' ref p ↔ ∃ g, slotField? chain p.name = some g ∧ StartsFit t g.type p.model) ∧
        ∃ own, t.superclassChain m.cls = .ok own ∧ ∃ f ∈ chainFields own, ∃ ty stage,
          Scan.MadeOf ⟨m.cls, m.type, config⟩ f ty stage p s'.registry ∧
          (slotField? chain p.name = some f →
            (∃ d, f.type.raw?.bind t.find? = some d ∧ d.redirect? = none) → ReadsFit s' ref p) := by
  intro t
  obtain ⟨c, chain, hc, hchain, hslots⟩ := instantiate_slots h.made
  refine ⟨c, chain, hc, hchain, fun p hp hplain hm => ?_⟩
  have hiff := h.readsFit_iff hp hplain hm (hslots p.name)
  obtain ⟨⟨own, hown, f, hf, ty, stage, hmade⟩, -⟩ := h.origin hp hplain
  refine ⟨hiff, own, hown, f, hf, ty, stage, hmade, fun hnearest ⟨d, hd, hdirect⟩ => ?_⟩
  exact hiff.2 ⟨f, hnearest, hmade.startsFit h.valid hplain hm hd hdirect⟩

/-- Colors, a class that holds a value of any type, and one that extends it with a color. -/
def color : Declaration := .enumeration ⟨"Color"⟩ ["Red", "Green"]

def base : Declaration :=
  let d := Declaration.typeParam (.plain ⟨"Base"⟩) "T" []
  d.publicField "value" (d.var "T")

def car : Declaration :=
  Declaration.publicField
    (Declaration.publicField
      (Declaration.withSuperclass (.plain ⟨"Car"⟩) (.apply base.id [.named color.id]))
      "paint" (.named color.id))
    "wheels" (.named PrimitiveKind.int32.primitiveId)

def carRun : List Operation := [.define color.draft, .define base.draft, .define car.draft]

/-- The model of the car is looked up and a car is made. -/
def carStore : Store :=
  let s := reached {} carRun
  let registry := after (Registry.of car.id) s.registry
  { registry, heap := after (registry.classes.instantiate car.id) s.heap }

def carContents : Contents := (carStore.registry.contents.find? 0).getD default

theorem car_fresh :
    ∃ m, FreshObject (reached {} carRun) car.id m carContents ⟨car.id, 0⟩ carStore := by
  have hlookup : (outcome (Registry.of car.id) (reached {} carRun).registry).toOption.any (·.id = 0) := by
    decide +kernel
  cases hm : Registry.of car.id (reached {} carRun).registry with
  | error e r =>
    rw [outcome_of_error hm] at hlookup
    cases hlookup
  | ok m r =>
    rw [outcome_of_ok hm] at hlookup
    have hid : m.id = 0 := of_decide_eq_true hlookup
    have hr : r = carStore.registry := (after_of_ok hm).symm
    refine ⟨m, by decide +kernel, hr ▸ hm, ?_, eq_ok_of_outcome (by decide +kernel)⟩
    unfold contents?
    rw [hid]
    exact eq_some_getD (by decide +kernel)

/-- The types of the fields that the slots of a car start with. -/
theorem car_slots {c : Class} {chain : List Class} (hc : carStore.registry.classes.find? car.id = some c)
    (hchain : carStore.registry.classes.superclassChain c = .ok chain) :
    ["paint", "value", "wheels"].map (fun name => (slotField? chain name).map (·.type)) =
      [some (.named color.id), some (.var base.id "T"), some (.named PrimitiveKind.int32.primitiveId)] := by
  have hall : (carStore.registry.classes.find? car.id).map (fun c =>
      (carStore.registry.classes.superclassChain c).toOption.map fun chain =>
        ["paint", "value", "wheels"].map fun name => (slotField? chain name).map (·.type)) =
      some (some [some (.named color.id), some (.var base.id "T"),
        some (.named PrimitiveKind.int32.primitiveId)]) := by decide +kernel
  rw [hc, Option.map_some, hchain] at hall
  exact Option.some.inj (Option.some.inj hall)

/-- The car has its color and its wheels from the start, but not the color that it inherits. -/
theorem fresh_object_fits_car :
    let p (place : Nat) : Property := carContents.properties[place]?.getD default
    let ref : Ref := ⟨car.id, 0⟩
    (∃ m, FreshObject (reached {} carRun) car.id m carContents ref carStore) ∧
      carContents.properties.map (·.name) = ["paint", "value", "wheels"] ∧
      ReadsFit carStore ref (p 0) ∧ ¬ ReadsFit carStore ref (p 1) ∧ ReadsFit carStore ref (p 2) := by
  intro p ref
  obtain ⟨m, hfresh⟩ := car_fresh
  obtain ⟨c, chain, hc, hchain, hfits⟩ := fresh_object_fits {} carRun hfresh
  have hslots := car_slots hc hchain
  simp only [List.map_cons, List.map_nil, List.cons.injEq, and_true] at hslots
  obtain ⟨hpaint, hvalue, hwheels⟩ := hslots
  have enumerated {place : Nat} (hkind : (p place).model.cls.kind = .enumeration ["Red", "Green"]) :
      (p place).model.NeverNull := .inr ⟨_, _, hkind⟩
  refine ⟨⟨m, hfresh⟩, by decide +kernel, ?_, ?_, ?_⟩
  · have hiff := (hfits (p 0) (getD_mem (by decide +kernel)) (by decide +kernel)
      (enumerated (by decide +kernel))).1
    rw [show (p 0).name = "paint" by decide +kernel] at hiff
    obtain ⟨g, hg, htype⟩ := Option.map_eq_some_iff.1 hpaint
    refine hiff.2 ⟨g, hg, (carStore.registry.classes.find? color.id).getD default, ?_, ?_⟩
    · rw [htype]
      exact eq_some_getD (by decide +kernel)
    · exact .inr ⟨⟨"Red", ["Green"], by decide +kernel⟩, by decide +kernel, by decide +kernel⟩
  · have hiff := (hfits (p 1) (getD_mem (by decide +kernel)) (by decide +kernel)
      (enumerated (by decide +kernel))).1
    rw [show (p 1).name = "value" by decide +kernel] at hiff
    obtain ⟨g, hg, htype⟩ := Option.map_eq_some_iff.1 hvalue
    rw [hiff]
    rintro ⟨g', hg', d, hd, -⟩
    cases hg.symm.trans hg'
    rw [htype] at hd
    cases hd
  · have hiff := (hfits (p 2) (getD_mem (by decide +kernel)) (by decide +kernel)
      (.inl ⟨.int32, by decide +kernel⟩)).1
    rw [show (p 2).name = "wheels" by decide +kernel] at hiff
    obtain ⟨g, hg, htype⟩ := Option.map_eq_some_iff.1 hwheels
    refine hiff.2 ⟨g, hg, (carStore.registry.classes.find? PrimitiveKind.int32.primitiveId).getD default, ?_, ?_⟩
    · rw [htype]
      exact eq_some_getD (by decide +kernel)
    · exact .inl ⟨.int32, by decide +kernel, by decide +kernel⟩

/-- The inherited color, which is never null for the model of the car, is null on a new one. -/
theorem inherited_default_null :
    let p : Property := carContents.properties[1]?.getD default
    let ref : Ref := ⟨car.id, 0⟩
    (∃ m, FreshObject (reached {} carRun) car.id m carContents ref carStore) ∧
      p ∈ carContents.properties ∧ p.name = "value" ∧ p.isPlainField = true ∧ p.model.NeverNull ∧
      p.model.isNullable = false ∧ p.model.raw = color.id ∧
      getProperty (.object ref) (some p) carStore = .ok .null carStore ∧ ¬ ReadsFit carStore ref p := by
  intro p ref
  have haccess : p.access = .slot p.name := by
    have hslot : (match p.access with | .slot name => decide (name = p.name) | _ => false) = true := by
      decide +kernel
    split at hslot
    · next name heq => rw [heq, of_decide_eq_true hslot]
    · cases hslot
  have hnull : carStore.heap.slotOrNull ref p.name = .null := by decide +kernel
  have hread := getProperty_plain (.inl haccess) ref carStore
  rw [hnull] at hread
  refine ⟨car_fresh, getD_mem (by decide +kernel), by decide +kernel, by decide +kernel,
    .inr ⟨"Red", ["Green"], by decide +kernel⟩, by decide +kernel, by decide +kernel, hread, ?_⟩
  rintro ⟨v, hv, hfilled, -⟩
  rw [hread] at hv
  cases hv
  cases hfilled

end Introspect
