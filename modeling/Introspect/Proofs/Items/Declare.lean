import Introspect.Items.Declare
import Introspect.Proofs.Classes.Unresolved
import Introspect.Proofs.Models.GeneratedSetters

/-!
Declarations of items: their variables are in scope and their type arguments are boxed.

A source type is mapped to an expression whose variables are type parameters of the item, owned by the class
that is declared, whatever it is called. In argument position a primitive becomes its wrapper.

* `mapType_mapped`: what a source type is mapped to.
* `mapType_boxed`: what argument position changes.
* `Item.declare_derived`: what is declared for a struct.
* `derived_in_scope`: its types are in scope, boxed and never fail to resolve for want of a variable.
-/

namespace Introspect

/-! ## Boxed arguments -/

namespace TypeExpr

/-- The primitive whose class, which is not nullable, the type is. -/
def primitive? : TypeExpr → Option PrimitiveKind
  | .named id => PrimitiveKind.ofClassName? id.name
  | _ => none

/-- The type in argument position. -/
def boxed (ty : TypeExpr) : TypeExpr :=
  match ty.primitive? with
  | some kind => .named kind.wrapperId
  | none => ty

mutual

/-- No type argument or bound, however deep, is the class of a primitive. -/
def argumentsBoxed : TypeExpr → Bool
  | .named _ => true
  | .apply _ args => allBoxed args
  | .wildcard lower upper => allBoxed lower && allBoxed upper
  | .var _ _ => true
  | .array component => component.argumentsBoxed

def allBoxed : List TypeExpr → Bool
  | [] => true
  | ty :: tys => ty.primitive?.isNone && ty.argumentsBoxed && allBoxed tys

end

theorem allBoxed_iff {tys : List TypeExpr} :
    allBoxed tys = true ↔ ∀ ty ∈ tys, ty.primitive? = none ∧ ty.argumentsBoxed = true := by
  induction tys with
  | nil => simp [allBoxed]
  | cons ty tys ih => simp [allBoxed, ih, and_assoc]

theorem boxed_of_not_primitive {ty : TypeExpr} (h : ty.primitive? = none) : ty.boxed = ty := by
  unfold boxed
  rw [h]

end TypeExpr

/-! ## Mapped types -/

/-- What is mapped in a scope: its variables are type parameters of the class, and no type argument is the
class of a primitive; in argument position the type itself is none either. -/
structure ItemScope.Maps (scope : ItemScope) (boxed : Bool) (ty : TypeExpr) : Prop where
  vars : ∀ v ∈ ty.vars, v.1 = scope.className ∧ v.2 ∈ scope.params
  arguments : ty.argumentsBoxed = true
  boxed : boxed = true → ty.primitive? = none

namespace ItemScope.Maps

variable {scope : ItemScope} {boxed : Bool} {ty : TypeExpr}

theorem of_boxed (h : scope.Maps true ty) : scope.Maps boxed ty :=
  ⟨h.vars, h.arguments, fun _ => h.boxed rfl⟩

theorem named {id : ClassId} (hid : boxed = true → PrimitiveKind.ofClassName? id.name = none) :
    scope.Maps boxed (.named id) :=
  ⟨fun _ hv => (nomatch hv), rfl, hid⟩

theorem primitive (kind : PrimitiveKind) : scope.Maps boxed (primitiveType kind boxed) := by
  refine named fun hboxed => ?_
  rw [hboxed]
  cases kind <;> decide

theorem apply {raw : ClassId} {args : List TypeExpr} (h : ∀ arg ∈ args, scope.Maps true arg) :
    scope.Maps boxed (.apply raw args) where
  vars v hv := by
    rw [TypeExpr.vars, TypeExpr.varsOfAll_eq_flatMap] at hv
    obtain ⟨arg, harg, hv⟩ := List.mem_flatMap.1 hv
    exact (h arg harg).vars v hv
  arguments := TypeExpr.allBoxed_iff.2 fun arg harg => ⟨(h arg harg).boxed rfl, (h arg harg).arguments⟩
  boxed _ := rfl

theorem array (h : scope.Maps false ty) : scope.Maps boxed (.array ty) :=
  ⟨h.vars, h.arguments, fun _ => rfl⟩

end ItemScope.Maps

theorem not_primitive_of_declared {name : String} (h : PathForm.ofName name = .declared) :
    PrimitiveKind.ofClassName? name = none := by
  unfold PathForm.ofName at h
  cases hname : PrimitiveKind.ofClassName? name with
  | none => rfl
  | some kind => rw [hname] at h; cases h

theorem isParam_iff {scope : ItemScope} {segments : List String} {args : List SourceType} :
    scope.isParam segments args = true ↔
      segments.length = 1 ∧ args = [] ∧ segments.getLastD "" ∈ scope.params := by
  simp [ItemScope.isParam, and_assoc]

section Mapped

variable {scope : ItemScope}

mutual

theorem mapType_mapped {boxed : Bool} {r : TypeExpr} :
    ∀ ty : SourceType, mapType scope boxed ty = .ok r → scope.Maps boxed r
  | .path segments args, h => by
    unfold mapType at h
    simp only at h
    split at h
    · next hparam =>
      cases h
      have hmem := (isParam_iff.1 hparam).2.2
      exact ⟨fun v hv => by cases List.mem_singleton.1 hv; exact ⟨rfl, hmem⟩, rfl, fun _ => rfl⟩
    · cases hform : PathForm.ofName (segments.getLastD "") with
      | primitive kind =>
        simp only [hform] at h
        cases h
        exact .primitive kind
      | text =>
        simp only [hform] at h
        cases h
        exact .named fun _ => by decide
      | nullable =>
        simp only [hform] at h
        exact (mapArgument_mapped 0 args h).of_boxed
      | pointer =>
        simp only [hform] at h
        exact mapArgument_mapped 0 args h
      | list =>
        simp only [hform] at h
        obtain ⟨item, hitem, hr⟩ := except_map_eq_ok h
        refine hr ▸ .apply fun arg harg => ?_
        cases List.mem_singleton.1 harg
        exact mapArgument_mapped 0 args hitem
      | map =>
        simp only [hform] at h
        obtain ⟨key, hkey, h⟩ := except_bind_eq_ok h
        obtain ⟨value, hvalue, h⟩ := except_bind_eq_ok h
        cases h
        refine .apply fun arg harg => ?_
        rcases List.mem_pair.1 harg with rfl | rfl
        · exact mapArgument_mapped 0 args hkey
        · exact mapArgument_mapped 1 args hvalue
      | unsupportedInteger =>
        simp only [hform] at h
        cases h
      | declared =>
        simp only [hform] at h
        split at h
        · cases h
          exact .named fun _ => not_primitive_of_declared hform
        · obtain ⟨rs, hrs, hr⟩ := except_map_eq_ok h
          exact hr ▸ .apply (mapArguments_mapped args hrs)
  | .array element, h => by
    obtain ⟨c, hc, hr⟩ := except_map_eq_ok h
    exact hr ▸ (mapType_mapped element hc).array
  | .slice element, h => by
    obtain ⟨c, hc, hr⟩ := except_map_eq_ok h
    exact hr ▸ (mapType_mapped element hc).array
  | .reference target, h => mapType_mapped target h
  | .paren inner, h => mapType_mapped inner h
  | .unsupported, h => nomatch h

theorem mapArgument_mapped {boxed : Bool} {name : String} {needed : Nat} {r : TypeExpr} :
    ∀ (skipped : Nat) (args : List SourceType),
      mapArgument scope boxed name needed skipped args = .ok r → scope.Maps boxed r
  | _, [], h => by simp [mapArgument] at h
  | 0, ty :: _, h => mapType_mapped ty (by simpa [mapArgument] using h)
  | skipped + 1, _ :: tys, h => mapArgument_mapped skipped tys (by simpa [mapArgument] using h)

theorem mapArguments_mapped {rs : List TypeExpr} :
    ∀ args : List SourceType, mapArguments scope args = .ok rs → ∀ r ∈ rs, scope.Maps true r
  | [], h, r, hr => by cases h; cases hr
  | ty :: tys, h, r, hr => by
    unfold mapArguments at h
    obtain ⟨first, hfirst, h⟩ := except_bind_eq_ok h
    obtain ⟨rest, hrest, h⟩ := except_bind_eq_ok h
    cases h
    rcases List.mem_cons.1 hr with rfl | hr
    · exact mapType_mapped ty hfirst
    · exact mapArguments_mapped tys hrest r hr

end

theorem map_boxed {x : Except ItemFault TypeExpr} (h : ∀ r, x = .ok r → r.primitive? = none) :
    x.map TypeExpr.boxed = x := by
  cases x with
  | error e => rfl
  | ok r => exact congrArg Except.ok (TypeExpr.boxed_of_not_primitive (h r rfl))

mutual

/-- In argument position a primitive becomes its wrapper, and nothing else changes. -/
theorem mapType_boxed :
    ∀ ty : SourceType, mapType scope true ty = (mapType scope false ty).map TypeExpr.boxed
  | .path segments args => by
    unfold mapType
    simp only
    split
    · rfl
    · cases hform : PathForm.ofName (segments.getLastD "") with
      | primitive kind => cases kind <;> rfl
      | text => exact congrArg Except.ok (TypeExpr.boxed_of_not_primitive (by decide)).symm
      | nullable => exact (map_boxed fun r hr => (mapArgument_mapped 0 args hr).boxed rfl).symm
      | pointer => exact mapArgument_boxed 0 args
      | list =>
        refine (map_boxed fun r hr => ?_).symm
        obtain ⟨item, -, rfl⟩ := except_map_eq_ok hr
        rfl
      | map =>
        refine (map_boxed fun r hr => ?_).symm
        obtain ⟨key, -, hr⟩ := except_bind_eq_ok hr
        obtain ⟨value, -, hr⟩ := except_bind_eq_ok hr
        cases hr
        rfl
      | unsupportedInteger => rfl
      | declared =>
        refine (map_boxed fun r hr => ?_).symm
        simp only at hr
        split at hr
        · cases hr
          exact not_primitive_of_declared hform
        · obtain ⟨rs, -, rfl⟩ := except_map_eq_ok hr
          rfl
  | .array element => by
    refine (map_boxed fun r hr => ?_).symm
    obtain ⟨c, -, rfl⟩ := except_map_eq_ok hr
    rfl
  | .slice element => by
    refine (map_boxed fun r hr => ?_).symm
    obtain ⟨c, -, rfl⟩ := except_map_eq_ok hr
    rfl
  | .reference target => by
    unfold mapType
    exact mapType_boxed target
  | .paren inner => by
    unfold mapType
    exact mapType_boxed inner
  | .unsupported => rfl

theorem mapArgument_boxed {name : String} {needed : Nat} :
    ∀ (skipped : Nat) (args : List SourceType), mapArgument scope true name needed skipped args =
      (mapArgument scope false name needed skipped args).map TypeExpr.boxed
  | _, [] => by
    unfold mapArgument
    rfl
  | 0, ty :: _ => by
    unfold mapArgument
    exact mapType_boxed ty
  | skipped + 1, _ :: tys => by
    unfold mapArgument
    exact mapArgument_boxed skipped tys

end

theorem mapTypes_mapped {tys : List SourceType} {rs : List TypeExpr}
    (h : tys.mapM (mapType scope false) = .ok rs) : ∀ r ∈ rs, scope.Maps false r := by
  induction tys generalizing rs with
  | nil =>
    cases h
    exact fun _ hr => nomatch hr
  | cons ty tys ih =>
    rw [List.mapM_cons] at h
    obtain ⟨first, hfirst, h⟩ := except_bind_eq_ok h
    obtain ⟨rest, hrest, h⟩ := except_bind_eq_ok h
    cases h
    intro r hr
    rcases List.mem_cons.1 hr with rfl | hr
    · exact mapType_mapped ty hfirst
    · exact ih hrest r hr

end Mapped

/-! ## Declared structs -/

/-- The field is declared for one of the source fields, with its type mapped, in a holder where the field is
observable. -/
def DeclaredFor (scope : ItemScope) (fields : List SourceField) (f : Field) : Prop :=
  ∃ source ∈ fields, ∃ o ty, FieldOptions.ofList source.options = .ok o ∧ o.skipped = false ∧
    mapType scope false source.type = .ok ty ∧
    f.name = String.ofList (plainName source.name.toList) ∧
    f.type = if o.observable then .holderOf ty else ty

/-- What is declared in a scope for source fields. -/
structure Declaration.Derived (scope : ItemScope) (fields : List SourceField) (d : Declaration) :
    Prop where
  id : d.id = scope.className
  typeParams : d.draft.typeParams = scope.params.map fun p => ⟨p, []⟩
  supertypes : ∀ ty ∈ d.draft.supertypes, scope.Maps false ty
  fields : ∀ f ∈ d.draft.fields, DeclaredFor scope fields f

section Structs

variable {options : ItemOptions} {scope : ItemScope} {fields : List SourceField} {d e : Declaration}

/-- A declaration with one more field, and perhaps its accessors. -/
theorem Declaration.Derived.extend (h : d.Derived scope fields) {f : Field}
    (hf : DeclaredFor scope fields f) {methods : List Method}
    (he : e.draft = { d.draft with fields := d.draft.fields ++ [f], methods }) :
    e.Derived scope fields where
  id := by
    unfold Declaration.id
    rw [he]
    exact h.id
  typeParams := by rw [he]; exact h.typeParams
  supertypes := by rw [he]; exact h.supertypes
  fields := by
    rw [he]
    intro g hg
    rcases List.mem_append.1 hg with hg | hg
    · exact h.fields g hg
    · exact List.mem_singleton.1 hg ▸ hf

theorem addItemField_derived (h : d.Derived scope fields) {source : SourceField}
    (hsource : source ∈ fields) (he : addItemField options scope d source = .ok e) :
    e.Derived scope fields := by
  unfold addItemField at he
  obtain ⟨o, ho, he⟩ := except_bind_eq_ok he
  split at he
  · cases he
    exact h
  next hskipped =>
  obtain ⟨ty, hty, he⟩ := except_bind_eq_ok he
  have hfor : ∀ f : Field, f.name = String.ofList (plainName source.name.toList) →
      f.type = (if o.observable then .holderOf ty else ty) → DeclaredFor scope fields f :=
    fun f hname htype => ⟨source, hsource, o, ty, ho, Bool.eq_false_iff.2 hskipped, hty, hname, htype⟩
  simp only at he
  split at he
  · cases he
    exact h.extend (hfor _ rfl rfl) rfl
  split at he
  · cases he
    exact h.extend (hfor _ rfl rfl) rfl
  · cases he
    exact h.extend (hfor _ rfl rfl) rfl

theorem addItemFields_derived (h : d.Derived scope fields) {sources : List SourceField}
    (hsources : ∀ source ∈ sources, source ∈ fields)
    (he : sources.foldlM (addItemField options scope) d = .ok e) : e.Derived scope fields := by
  induction sources generalizing d with
  | nil =>
    cases he
    exact h
  | cons source sources ih =>
    rw [List.foldlM_cons] at he
    obtain ⟨d', hstep, he⟩ := except_bind_eq_ok he
    exact ih (addItemField_derived h (hsources source List.mem_cons_self) hstep)
      (fun s hs => hsources s (List.mem_cons_of_mem _ hs)) he

theorem foldl_typeParam (params : List String) (d : Declaration) :
    params.foldl (fun d p => d.typeParam p []) d =
      ⟨{ d.draft with typeParams := d.draft.typeParams ++ params.map fun p => ⟨p, []⟩ }⟩ := by
  induction params generalizing d with
  | nil => simp
  | cons p params ih =>
    rw [List.foldl_cons, ih]
    simp [Declaration.typeParam]

theorem foldl_withInterface (tys : List TypeExpr) (d : Declaration) :
    tys.foldl Declaration.withInterface d =
      ⟨{ d.draft with interfaces := d.draft.interfaces ++ tys }⟩ := by
  induction tys generalizing d with
  | nil => simp
  | cons ty tys ih =>
    rw [List.foldl_cons, ih]
    simp [Declaration.withInterface]

theorem mapSuperclass_mapped {ty? : Option SourceType} {superclass : Option TypeExpr}
    (h : ty?.mapM (mapType scope false) = .ok superclass) :
    ∀ ty ∈ superclass.toList, scope.Maps false ty := by
  intro ty hty
  cases ty? with
  | none => cases h; cases hty
  | some source =>
    obtain ⟨r, hr, hsome⟩ := except_map_eq_ok h
    cases hsome
    exact List.mem_singleton.1 hty ▸ mapType_mapped source hr

theorem declareStruct_derived (h : declareStruct options scope fields = .ok d) :
    d.Derived scope fields := by
  unfold declareStruct at h
  obtain ⟨superclass, hsuper, h⟩ := except_bind_eq_ok h
  obtain ⟨interfaces, hinterfaces, h⟩ := except_bind_eq_ok h
  refine addItemFields_derived ?_ (fun _ hs => hs) h
  -- a record and a plain class start without anything
  obtain ⟨start, hstart, hid, hparams, hnone, hempty, hfields⟩ : ∃ start : Declaration,
      (if options.isRecord then Declaration.record scope.className
        else Declaration.plain scope.className) = start ∧ start.id = scope.className ∧
      start.draft.typeParams = [] ∧ start.draft.superclass = none ∧ start.draft.interfaces = [] ∧
      start.draft.fields = [] := by
    refine ⟨_, rfl, ?_⟩
    split <;> exact ⟨rfl, rfl, rfl, rfl, rfl⟩
  rw [hstart, foldl_typeParam, foldl_withInterface]
  have hsupers : ∀ ty ∈ superclass.toList ++ interfaces, scope.Maps false ty := by
    intro ty hty
    rcases List.mem_append.1 hty with hty | hty
    · exact mapSuperclass_mapped hsuper ty hty
    · exact mapTypes_mapped hinterfaces ty hty
  cases superclass with
  | none =>
    refine ⟨hid, by simp [hparams], ?_, by simp [hfields]⟩
    simpa [Class.supertypes, hnone, hempty] using hsupers
  | some ty =>
    refine ⟨hid, ?_, ?_, ?_⟩
    · simp [Declaration.withSuperclass, hparams]
    · simpa [Declaration.withSuperclass, Class.supertypes, hempty] using hsupers
    · simp [Declaration.withSuperclass, hfields]

end Structs

theorem Item.declare_derived {item : Item} {fields : List SourceField} (hbody : item.body = .fields fields)
    {d : Declaration} (h : item.declare = .ok d) :
    ∃ options, ItemOptions.ofList item.options = .ok options ∧
      d.Derived ⟨⟨options.name.getD item.name⟩, item.params.filterMap typeParamName?⟩ fields := by
  unfold Item.declare at h
  obtain ⟨options, hoptions, h⟩ := except_bind_eq_ok h
  rw [hbody] at h
  exact ⟨options, hoptions, declareStruct_derived h⟩

/-! ## Variables of a declared struct -/

section Derived

variable {scope : ItemScope} {fields : List SourceField} {d : Declaration}

theorem DeclaredFor.vars {f : Field} (h : DeclaredFor scope fields f) :
    ∀ v ∈ f.type.vars, v.1 = scope.className ∧ v.2 ∈ scope.params := by
  obtain ⟨source, -, o, ty, -, -, hty, -, htype⟩ := h
  intro v hv
  refine (mapType_mapped source.type hty).vars v ?_
  rw [htype] at hv
  split at hv
  · -- the holder has the type for its only argument
    simpa [TypeExpr.holderOf, TypeExpr.vars, TypeExpr.varsOfAll] using hv
  · exact hv

/-- The types of generated accessors are those of fields. -/
theorem Class.MethodsGenerated.mem_mentions {c : Class} (h : c.MethodsGenerated)
    (hparams : ∀ p ∈ c.typeParams, p.bounds = []) {ty : TypeExpr} (hty : ty ∈ c.mentions) :
    ty ∈ c.supertypes ∨ ∃ f ∈ c.fields, ty = f.type := by
  unfold mentions at hty
  simp only [List.mem_append, List.mem_flatMap, List.mem_map] at hty
  rcases hty with ((hty | ⟨p, hp, hbound⟩) | ⟨f, hf, rfl⟩) | ⟨m, hm, hmember⟩
  · exact .inl hty
  · rw [hparams p hp] at hbound
    cases hbound
  · exact .inr ⟨f, hf, rfl⟩
  · obtain ⟨f, hf, role, rfl⟩ := h m hm
    refine .inr ⟨f, hf, ?_⟩
    cases role with
    | getter => simpa [generated, Declaration.getterOf] using hmember
    | setter => simpa [generated, Declaration.setterOf] using hmember

theorem Declaration.Derived.vars (h : d.Derived scope fields) (hmethods : d.draft.MethodsGenerated)
    {ty : TypeExpr} (hty : ty ∈ d.draft.mentions) :
    ∀ v ∈ ty.vars, v.1 = scope.className ∧ v.2 ∈ scope.params := by
  have hbounds : ∀ p ∈ d.draft.typeParams, p.bounds = [] := by
    rw [h.typeParams]
    intro p hp
    obtain ⟨name, -, rfl⟩ := List.mem_map.1 hp
    rfl
  rcases hmethods.mem_mentions hbounds hty with hty | ⟨f, hf, rfl⟩
  · exact (h.supertypes ty hty).vars
  · exact (h.fields f hf).vars

/-- Finishing a declaration leaves its header alone. -/
theorem Declaration.build_header {b : Class} (h : d.build = .ok b) :
    b.id = d.id ∧ b.typeParams = d.draft.typeParams ∧ b.supertypes = d.draft.supertypes := by
  unfold build at h
  simp only at h
  split at h
  · split at h
    · cases h
    split at h
    · cases h; exact ⟨rfl, rfl, rfl⟩
    · cases h; exact ⟨rfl, rfl, rfl⟩
  · split at h
    · cases h
    · cases h; exact ⟨rfl, rfl, rfl⟩
  · cases h; exact ⟨rfl, rfl, rfl⟩

theorem normalize_typeParams (c : Class) : c.normalize.typeParams = c.typeParams := by
  unfold Class.normalize
  split <;> rfl

/-- Where the class is declared, its type parameters are. -/
theorem Declaration.Derived.declares (h : d.Derived scope fields) {b : Class} (hb : d.build = .ok b)
    {t : ClassTable} (ht : t.find? d.id = some b.normalize) {v : ClassId × String}
    (hv : v.1 = scope.className ∧ v.2 ∈ scope.params) : t.Declares v := by
  refine ⟨b.normalize, by rw [hv.1, ← h.id]; exact ht, ?_⟩
  unfold Class.typeParamIndex?
  rw [normalize_typeParams, (Declaration.build_header hb).2.1, h.typeParams, List.findIdx?_isSome]
  simp [hv.2]

end Derived

/-- What is declared for a struct with named fields: its type parameters are those of the item, it owns every
variable of its types and has it among these parameters, and apart from the holder of an observable field no
type argument is the class of a primitive, which argument position turns into its wrapper. Where the class is
declared, no resolution fails for want of one of these variables; with well-scoped classes and a site in scope
none of its types fails for want of any. -/
theorem derived_in_scope {item : Item} {fields : List SourceField} (hbody : item.body = .fields fields)
    {d : Declaration} (h : item.declare = .ok d) :
    let params := item.params.filterMap typeParamName?
    let scope : ItemScope := ⟨d.id, params⟩
    (∃ options, ItemOptions.ofList item.options = .ok options ∧
      d.id = ⟨options.name.getD item.name⟩) ∧
    d.draft.typeParams = params.map (fun p => ⟨p, []⟩) ∧
    (∀ ty ∈ d.draft.mentions, ∀ v ∈ ty.vars, v.1 = d.id ∧ v.2 ∈ params) ∧
    (∀ ty ∈ d.draft.supertypes, ty.argumentsBoxed = true) ∧
    (∀ f ∈ d.draft.fields, ∃ source ∈ fields, ∃ o ty,
      FieldOptions.ofList source.options = .ok o ∧ mapType scope false source.type = .ok ty ∧
        ty.argumentsBoxed = true ∧ f.type = if o.observable then .holderOf ty else ty) ∧
    (∀ source, mapType scope true source = (mapType scope false source).map TypeExpr.boxed) ∧
    ∀ b, d.build = .ok b →
      (∀ t t' : ClassTable, t.WellScoped → t.define b = .ok t' → t'.WellScoped) ∧
      ∀ t, t.find? d.id = some b.normalize → ∀ ty site owner name at' t',
        (ClassTable.resolve ty site t = .error (.unresolvedVariable owner name at') t' →
          ¬(owner = d.id ∧ name ∈ params)) ∧
        (ty ∈ d.draft.mentions → t.WellScoped → t.InScope site →
          ClassTable.resolve ty site t ≠ .error (.unresolvedVariable owner name at') t') := by
  intro params scope
  obtain ⟨options, hoptions, hd⟩ := Item.declare_derived hbody h
  have hid : d.id = ⟨options.name.getD item.name⟩ := hd.id
  rw [← hid] at hd
  have hvars : ∀ ty ∈ d.draft.mentions, ∀ v ∈ ty.vars, v.1 = d.id ∧ v.2 ∈ params :=
    fun ty hty => hd.vars (Item.declare_methodsGenerated h) hty
  refine ⟨⟨options, hoptions, hid⟩, hd.typeParams, hvars,
    fun ty hty => (hd.supertypes ty hty).arguments, fun f hf => ?_, mapType_boxed, fun b hb => ⟨?_, ?_⟩⟩
  · obtain ⟨source, hsource, o, ty, ho, -, hty, -, htype⟩ := hd.fields f hf
    exact ⟨source, hsource, o, ty, ho, hty, (mapType_mapped source.type hty).arguments, htype⟩
  · intro t t' ht hdefine
    obtain ⟨hbid, -, hsupers⟩ := Declaration.build_header hb
    refine ht.define hdefine fun ty hty v hv => ?_
    rw [hsupers] at hty
    exact hd.declares hb (hbid ▸ ClassTable.find?_define_self hdefine)
      (hvars ty (Class.mentions_supertype hty) v hv)
  · intro t ht ty site owner name at' t'
    refine ⟨fun hfails hown => ?_, fun hty hscoped hsite =>
      hscoped.resolve (fun v hv => hd.declares hb ht (hvars ty hty v hv)) hsite⟩
    have hlacks := (ClassTable.resolve_unresolved (P := fun _ => True)
      (fun _ _ _ _ _ _ _ => trivial) (fun _ _ => trivial) (fun _ _ => trivial) hfails).2
    exact (hd.declares hb ht hown).not_lacks hlacks

/-- A struct with a type parameter beside a lifetime and a constant, declared under another name. -/
def pageItem : Item where
  name := "Page"
  options := [.name "Sheet", .superclass (.path ["Base"] [.path ["i32"] []])]
  params := ["'a", "T: Clone", "const N: usize"]
  body := .fields
    [⟨"count", true, [.flag "observable"], .path ["i32"] []⟩,
      ⟨"sizes", true, [], .path ["Option"] [.path ["Vec"] [.path ["Box"] [.path ["i64"] []]]]⟩,
      ⟨"rows", false, [], .path ["HashMap"] [.path ["T"] [], .array (.path ["T"] [])]⟩]

def page : Declaration := pageItem.declare.toOption.getD default

theorem derived_in_scope_page :
    pageItem.declare = .ok page ∧ page.id = ⟨"Sheet"⟩ ∧
      page.draft.fields.map (·.type) =
        [.holderOf (.named ⟨"i32"⟩), .listOf (.named ⟨"Long"⟩),
          .mapOf (.var ⟨"Sheet"⟩ "T") (.array (.var ⟨"Sheet"⟩ "T"))] ∧
      page.draft.superclass = some (.apply ⟨"Base"⟩ [.named ⟨"Integer"⟩]) ∧
      ∀ t, ClassTable.builtin.define page.draft = .ok t → t.WellScoped ∧
        ∀ ty ∈ page.draft.mentions, ∀ owner name at' t',
          ClassTable.resolve ty (.apply page.id [.named .string]) t ≠
            .error (.unresolvedVariable owner name at') t' := by
  have hdeclare : pageItem.declare = .ok page := rfl
  obtain ⟨-, -, -, -, -, -, hbuilt⟩ := derived_in_scope rfl hdeclare
  obtain ⟨hkeeps, hresolves⟩ := hbuilt page.draft rfl
  refine ⟨hdeclare, by decide +kernel, by decide +kernel, by decide +kernel, fun t ht => ?_⟩
  have hscoped : t.WellScoped := hkeeps _ t ClassTable.builtin_wellScoped ht
  refine ⟨hscoped, fun ty hty owner name at' t' =>
    (hresolves t (ClassTable.find?_define_self ht) ty _ owner name at' t').2 hty hscoped ?_⟩
  intro v hv
  cases hv

end Introspect
