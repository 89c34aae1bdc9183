import Introspect.Classes.Declaration
import Introspect.Proofs.Models.Declarations
import Introspect.Proofs.Models.Requests
import Introspect.Proofs.Models.Scan
import Introspect.Proofs.Values.Instances
import Mathlib.Data.List.Nodup

/-!
The names of generated accessors, and the properties they stand for.

A declaration upper-cases the first character of a field name and a scan lower-cases it again. The two are
not inverse: a name may begin with a character that is upper-case already, or has no upper case.

* `accessor?_generated`: the property name of a generated accessor.
* `accessorProperty?_of_letter`: names that begin with a lower-case letter are their own.
* `Dispatch.call_eq`: a call runs the first body among the supertypes of the receiver.
* `AccessorsOf.method?_eq`: what a call of a generated accessor runs.
* `accessor_properties`: the properties of a class with generated accessors.
-/

namespace Introspect

open Text Registry ClassTable Declaration

/-! ## Names -/

/-- The property name that the generated accessors of a field have. -/
def accessorProperty? (name : String) : Option String :=
  match capitalizeChars name.toList with
  | c :: rest => if isUppercase c then some (String.ofList (decapitalizeChars (c :: rest))) else none
  | [] => none

theorem afterStart?_append (start cs : List Char) : afterStart? start (start ++ cs) = some cs := by
  unfold afterStart?
  rw [if_pos (by simp), List.drop_left]

theorem accessor?_of_start {m : Method} {role : AccessorRole} {start : List Char} {name : String}
    (hstart : accessorStart m = (role, start)) (harity : m.arity = role.arity)
    (hname : m.name.toList = start ++ capitalizeChars name.toList) :
    m.accessor? = (accessorProperty? name).map (role, ·) := by
  unfold Method.accessor? accessorProperty?
  rw [hstart]
  simp only [harity, ne_eq, not_true_eq_false, if_false, hname, afterStart?_append]
  cases capitalizeChars name.toList with
  | nil => rfl
  | cons c rest =>
    simp only
    split <;> rfl

/-- The generated accessor of a field in a role. -/
def generated (role : AccessorRole) (f : Field) : Method :=
  match role with
  | .getter => getterOf f
  | .setter => setterOf f

theorem generated_arity (role : AccessorRole) (f : Field) :
    (generated role f).arity = role.arity := by
  cases role <;> rfl

theorem generated_isVoid (role : AccessorRole) (f g : Field) :
    (generated role f).isVoid = (generated role g).isVoid := by
  cases role <;> rfl

/-- A generated accessor is one by its name: booleans are read by `is`, anything else by `get`. -/
theorem accessor?_generated (role : AccessorRole) (f : Field) :
    (generated role f).accessor? = (accessorProperty? f.name).map (role, ·) := by
  cases role with
  | setter =>
    exact accessor?_of_start rfl rfl (by simp [generated, setterOf, setterName, capitalize])
  | getter =>
    cases hb : isBoolean f.type with
    | true =>
      have hname : (getterName f).toList = "is".toList ++ capitalizeChars f.name.toList := by
        simp [getterName, hb, capitalize]
      refine accessor?_of_start ?_ rfl hname
      simp [accessorStart, generated, getterOf, hname, Method.isVoid]
    | false =>
      have hname : (getterName f).toList = "get".toList ++ capitalizeChars f.name.toList := by
        simp [getterName, hb, capitalize]
      refine accessor?_of_start ?_ rfl hname
      simp [accessorStart, generated, getterOf, hname, Method.isVoid]

/-- The upper case of the character is one upper-case character, whose lower case it is. -/
def hasCasePartner (c : Char) : Bool :=
  match upperOf c with
  | [u] => isUppercase u && lowerOf u = [c]
  | _ => false

theorem accessorProperty?_of_partner {name : String} {c : Char} {rest : List Char}
    (hname : name.toList = c :: rest) (hc : hasCasePartner c = true) :
    accessorProperty? name = some name := by
  unfold hasCasePartner at hc
  split at hc
  · next u hu =>
    obtain ⟨hupper, hlower⟩ := Bool.and_eq_true_iff.1 hc
    have hcaps : capitalizeChars name.toList = u :: rest := by
      rw [hname, capitalizeChars, hu]
      rfl
    unfold accessorProperty?
    simp only [hcaps, hupper, if_true, decapitalizeChars, of_decide_eq_true hlower]
    rw [List.singleton_append, ← hname, String.ofList_toList]
  · cases hc

/-- Names that begin with a lower-case Latin letter are those of their accessors. -/
theorem accessorProperty?_of_letter {name : String} {c : Char} {rest : List Char}
    (hname : name.toList = c :: rest) (ha : 'a' ≤ c) (hz : c ≤ 'z') :
    accessorProperty? name = some name := by
  have hletters : ∀ n ∈ List.range' 97 26, hasCasePartner (Char.ofNat n) = true := by decide +kernel
  refine accessorProperty?_of_partner hname ?_
  have hn := hletters c.toNat (by
    have ha' : 97 ≤ c.toNat := ha
    have hz' : c.toNat ≤ 122 := hz
    simp
    omega)
  rwa [Char.ofNat_toNat] at hn

/-! ## Classes with generated accessors -/

/-- The methods of the class are the generated accessors of some of its fields. Its members may be scanned,
and no two fields have the same name. -/
structure AccessorsOf (c : Class) (fs : List Field) : Prop where
  methods : c.methods = fs.flatMap fun f => [getterOf f, setterOf f]
  fields : ∀ f ∈ fs, f ∈ c.fields
  names : (c.fields.map (·.name)).Nodup
  accessible : c.accessible = true
  proxy : c.proxy = false

/-- The accessors of the field, and of no other one, have its name for their property. -/
def NamedAfter (fs : List Field) (f : Field) : Prop :=
  ∀ g ∈ fs, accessorProperty? g.name = some f.name ↔ g = f

theorem find?_eq_some_of_unique {α : Type} {p : α → Bool} {as : List α} {a : α} (ha : a ∈ as)
    (hp : p a = true) (hunique : ∀ b ∈ as, p b = true → b = a) : as.find? p = some a := by
  obtain ⟨b, hb⟩ := Option.isSome_iff_exists.1 (List.find?_isSome.2 ⟨a, ha, hp⟩)
  rw [hb, hunique b (List.mem_of_find?_eq_some hb) (List.find?_some hb)]

namespace AccessorsOf

variable {c : Class} {fs : List Field} {f : Field}

theorem mem_methods (h : AccessorsOf c fs) {m : Method} :
    m ∈ c.methods ↔ ∃ g ∈ fs, ∃ role, m = generated role g := by
  rw [h.methods, List.mem_flatMap]
  constructor
  · rintro ⟨g, hg, hm⟩
    rcases List.mem_pair.1 hm with rfl | rfl
    · exact ⟨g, hg, .getter, rfl⟩
    · exact ⟨g, hg, .setter, rfl⟩
  · rintro ⟨g, hg, role, rfl⟩
    exact ⟨g, hg, by cases role <;> simp [generated]⟩

theorem eq_of_name (h : AccessorsOf c fs) {g : Field} (hf : f ∈ c.fields) (hg : g ∈ c.fields)
    (hname : g.name = f.name) : g = f :=
  List.inj_on_of_nodup_map h.names hg hf hname

/-- All names may be those of their accessors, as they are when they begin with a lower-case letter. -/
theorem namedAfter (h : AccessorsOf c fs)
    (hnames : ∀ g ∈ fs, accessorProperty? g.name = some g.name) (hf : f ∈ fs) : NamedAfter fs f := by
  intro g hg
  rw [hnames g hg]
  constructor
  · intro hname
    exact h.eq_of_name (h.fields f hf) (h.fields g hg) (Option.some.inj hname)
  · rintro rfl
    rfl

theorem field?_eq (h : AccessorsOf c fs) (hf : f ∈ c.fields) : c.field? f.name = some f :=
  find?_eq_some_of_unique hf (by simp) fun g hg hname =>
    h.eq_of_name hf hg (of_decide_eq_true hname)

theorem isTransientIn_cons (h : AccessorsOf c fs) (hf : f ∈ c.fields) (rest : List Class) :
    Scan.isTransientIn (c :: rest) f.name = f.isTransient := by
  unfold Scan.isTransientIn
  rw [List.findSome?_cons, h.field?_eq hf]
  rfl

theorem generated_candidate (config : Config) (role : AccessorRole) (g : Field) :
    isAccessorCandidate config (generated role g) = true := by
  cases role <;> rfl

/-- The accessors of the class: a getter and a setter for every field whose accessors are so named. -/
theorem mem_accessors (h : AccessorsOf c fs) (config : Config) {a : Accessor} :
    a ∈ c.accessors config ↔ ∃ g ∈ fs, ∃ role name, accessorProperty? g.name = some name ∧
      a = ⟨role, name, generated role g⟩ := by
  unfold Class.accessors
  simp only [h.accessible, h.proxy, Bool.not_false, Bool.and_self, if_true, List.mem_filterMap,
    h.mem_methods]
  constructor
  · rintro ⟨m, ⟨g, hg, role, rfl⟩, ha⟩
    rw [if_pos (generated_candidate config role g), accessor?_generated] at ha
    obtain ⟨⟨role', name⟩, hpair, rfl⟩ := Option.map_eq_some_iff.1 ha
    obtain ⟨name', hname, heq⟩ := Option.map_eq_some_iff.1 hpair
    cases heq
    exact ⟨g, hg, role, name, hname, rfl⟩
  · rintro ⟨g, hg, role, name, hname, rfl⟩
    refine ⟨generated role g, ⟨g, hg, role, rfl⟩, ?_⟩
    rw [if_pos (generated_candidate config role g), accessor?_generated, hname]
    rfl

/-- Whatever other classes declare, the accessors of the class come first. -/
theorem firstAccessor?_eq (h : AccessorsOf c fs) (hf : f ∈ fs) (hn : NamedAfter fs f)
    (config : Config) (role : AccessorRole) (rest : List Accessor) :
    firstAccessor? (c.accessors config ++ rest) role f.name = some (generated role f) := by
  have hfirst : (c.accessors config).find? (fun a => a.role = role && a.property = f.name) =
      some ⟨role, f.name, generated role f⟩ := by
    refine find?_eq_some_of_unique
      ((h.mem_accessors config).2 ⟨f, hf, role, _, (hn f hf).2 rfl, rfl⟩) (by simp) fun a ha hp => ?_
    obtain ⟨g, hg, role', name, hname, rfl⟩ := (h.mem_accessors config).1 ha
    obtain ⟨rfl, rfl⟩ : role' = role ∧ name = f.name := by simpa using hp
    rw [(hn g hg).1 hname]
  unfold firstAccessor?
  rw [List.find?_append, hfirst]
  rfl

/-- The pair of the accessors of a field is scanned. -/
theorem pair_mem (h : AccessorsOf c fs) (hf : f ∈ fs) (hn : NamedAfter fs f) (config : Config)
    (rest : List Class) :
    (⟨f.name, some (getterOf f), some (setterOf f)⟩ : AccessorPair) ∈
      accessorPairs ((c :: rest).flatMap (·.accessors config)) := by
  have hin : (⟨.getter, f.name, getterOf f⟩ : Accessor) ∈ c.accessors config :=
    (h.mem_accessors config).2 ⟨f, hf, .getter, _, (hn f hf).2 rfl, rfl⟩
  rw [List.flatMap_cons]
  refine List.mem_map.2 ⟨f.name, List.mem_eraseDups.2 ?_, ?_⟩
  · exact List.mem_map.2 ⟨_, List.mem_append_left _ hin, rfl⟩
  · rw [h.firstAccessor?_eq hf hn, h.firstAccessor?_eq hf hn]
    rfl

/-- The class has no other method of the name with as many parameters. -/
theorem method?_eq (h : AccessorsOf c fs) (hf : f ∈ fs) (hn : NamedAfter fs f)
    (role : AccessorRole) :
    c.method? (generated role f).name role.arity = some (generated role f) := by
  refine find?_eq_some_of_unique (h.mem_methods.2 ⟨f, hf, role, rfl⟩)
    (by simp [generated_arity]) fun m hm hp => ?_
  obtain ⟨g, hg, role', rfl⟩ := h.mem_methods.1 hm
  obtain ⟨hname, harity⟩ : (generated role' g).name = (generated role f).name ∧
      (generated role' g).arity = role.arity := by simpa using hp
  obtain rfl : role' = role := by
    rw [generated_arity] at harity
    cases role' <;> cases role <;> first | rfl | cases harity
  -- methods with the same name are accessors of the same property
  have hsame : (generated role' g).accessor? = (generated role' f).accessor? := by
    unfold Method.accessor? accessorStart
    rw [hname, generated_isVoid role' g f, generated_arity, generated_arity]
  rw [accessor?_generated, accessor?_generated, (hn f hf).2 rfl] at hsame
  obtain ⟨name, hg', heq⟩ := Option.map_eq_some_iff.1 hsame
  cases heq
  rw [(hn g hg).1 hg']

end AccessorsOf

/-! ## Calls -/

/-- The body that runs: the first one among the classes, else the declared one. -/
def Dispatch.bodyAmong (d : Dispatch) (types : List Class) (arity : Nat) : Option MethodBody :=
  (firstBody d.method arity types).or d.declared

/-- What a call runs, if the registry is there and the method has a body. -/
theorem Dispatch.call_eq {d : Dispatch} {this : Value} {id : ClassId} {types : List Class} {s : Store}
    (hlive : s.registry.live = true) (hthis : this.runtimeClass? = some id)
    (htypes : s.registry.classes.supertypes id = .ok types) (args : List Value) :
    d.call this args s =
      match d.bodyAmong types args.length with
      | some body => Store.onHeap (body this args) s
      | none => .error (.introspection d.member .noImplementation) s := by
  obtain ⟨c, hc⟩ := find?_of_supertypes htypes
  have hfound : s.registry.classes.findMethod this d.method args.length =
      .ok (firstBody d.method args.length types) := by
    unfold findMethod
    simp only [hthis, contains, hc, Option.isSome_some, if_true, htypes]
    rfl
  unfold Dispatch.call Dispatch.body bodyAmong
  rw [bind_assoc, bind_of_ok (Store.requireLive_of_live hlive), bind_assoc, bind_of_ok (get_apply s),
    bind_assoc, bind_of_ok (ofExcept_eq_ok_iff.2 ⟨hfound, rfl⟩)]
  cases firstBody d.method args.length types with
  | some body => rfl
  | none => cases d.declared <;> rfl

/-- The receiver's own method runs first. -/
theorem Dispatch.bodyAmong_own {d : Dispatch} {c : Class} {rest : List Class} {m : Method} {body : MethodBody}
    {arity : Nat} (hm : c.method? d.method arity = some m) (hbody : m.body = some body) :
    d.bodyAmong (c :: rest) arity = some body := by
  unfold Dispatch.bodyAmong firstBody
  rw [List.findSome?_cons, hm, Option.bind_some, hbody]
  rfl

theorem call_own {d : Dispatch} {ref : Ref} {c : Class} {types : List Class} {m : Method}
    {body : MethodBody} {args : List Value} {s : Store} (hlive : s.registry.live = true)
    (hc : s.registry.classes.find? ref.cls = some c)
    (htypes : s.registry.classes.supertypes ref.cls = .ok types)
    (hm : c.method? d.method args.length = some m) (hbody : m.body = some body) :
    d.call (.object ref) args s = Store.onHeap (body (.object ref) args) s := by
  obtain ⟨rest, rfl⟩ := supertypes_eq_cons hc htypes
  rw [d.call_eq hlive rfl htypes, Dispatch.bodyAmong_own hm hbody]

/-- The property whose getter and setter are the generated accessors of the field. -/
def Property.IsAccessorsOf (p : Property) (f : Field) : Prop :=
  ∃ getter setter, p.access = .accessors getter setter ∧ getter.method = (getterOf f).name ∧
    setter.method = (setterOf f).name

section Access

variable {c : Class} {fs : List Field} {f : Field} {p : Property} {ref : Ref} {s : Store}
  {types : List Class}

theorem getProperty_accessors (h : AccessorsOf c fs) (hf : f ∈ fs) (hn : NamedAfter fs f)
    (hp : p.IsAccessorsOf f) (hlive : s.registry.live = true)
    (hc : s.registry.classes.find? ref.cls = some c)
    (htypes : s.registry.classes.supertypes ref.cls = .ok types) :
    getProperty (.object ref) (some p) s = .ok (s.heap.slotOrNull ref f.name) s := by
  obtain ⟨getter, setter, haccess, hgetter, -⟩ := hp
  have hm : c.method? getter.method ([] : List Value).length = some (getterOf f) := by
    rw [hgetter]
    exact h.method?_eq hf hn .getter
  have hread : p.read (.object ref) = getter.call (.object ref) [] := by
    unfold Property.read
    rw [haccess]
  rw [getProperty_object, hread, call_own hlive hc htypes hm rfl]
  rfl

theorem setProperty_accessors (h : AccessorsOf c fs) (hf : f ∈ fs) (hn : NamedAfter fs f)
    (hp : p.IsAccessorsOf f) (hlive : s.registry.live = true)
    (hc : s.registry.classes.find? ref.cls = some c)
    (htypes : s.registry.classes.supertypes ref.cls = .ok types) {v : Value}
    (hi : ignoresWrite p (.object ref) v = false) (ha : s.registry.accepts p.model v = true) :
    setProperty (.object ref) (some p) v s =
      .ok (.object ref) { s with heap := s.heap.setSlot ref f.name v } := by
  obtain ⟨getter, setter, haccess, -, hsetter⟩ := hp
  have hm : c.method? setter.method [v].length = some (setterOf f) := by
    rw [hsetter]
    exact h.method?_eq hf hn .setter
  have hcall : setter.call (.object ref) [v] s =
      .ok .null { s with heap := s.heap.setSlot ref f.name v } :=
    call_own hlive hc htypes hm rfl
  have hwrite : p.write (.object ref) v = (do
      discard (setter.call (.object ref) [v])
      return .object ref) := by
    unfold Property.write
    rw [haccess]
  rw [setProperty_of_accepted hi ha, hwrite, bind_of_ok (discard_of_ok hcall)]
  rfl

end Access

/-! ## Properties of the model -/

/-- The class has an accessor of the property name, or a field of that name. -/
def Class.Contributes (d : Class) (name : String) : Prop :=
  (∃ m ∈ d.methods, ∃ role, m.accessor? = some (role, name)) ∨ ∃ g ∈ d.fields, g.name = name

/-- The class is a supertype of the other one, which is its own supertype as well. -/
def Above (t : ClassTable) (c d : Class) : Prop :=
  (∃ types, t.supertypes c.id = .ok types ∧ d ∈ types) ∨
    ∃ chain, t.superclassChain c = .ok chain ∧ d ∈ chain

theorem accessors_declared {d : Class} {config : Config} {a : Accessor}
    (ha : a ∈ d.accessors config) :
    a.method ∈ d.methods ∧ a.method.accessor? = some (a.role, a.property) := by
  unfold Class.accessors at ha
  split at ha
  · obtain ⟨m, hm, ha⟩ := List.mem_filterMap.1 ha
    split at ha
    · obtain ⟨⟨role, name⟩, hname, rfl⟩ := Option.map_eq_some_iff.1 ha
      exact ⟨hm, hname⟩
    · cases ha
  · cases ha

namespace ModelOf

variable {config : Config} {ops : List Operation} {c : Class} {m : Model} {k : Contents}

theorem property?_eq {r : Registry} (h : ModelOf r c m k)
    (hkind : m.kind = .object ∨ m.kind = .generic) (name : String) :
    m.property? name r = .ok (k.properties.find? (·.name = name)) r := by
  have hproperties := Model.properties_of_initialized h.contents
  unfold Model.property?
  rcases hkind with hkind | hkind
  all_goals
    simp only [hkind]
    rw [bind_of_ok hproperties]
    rfl

/-- Every property has its name from a supertype or superclass of the class. -/
theorem contributed (h : ModelOf (reached config ops).registry c m k) {q : Property}
    (hq : q ∈ k.properties) :
    ∃ d, Above (reached config ops).registry.classes c d ∧ d.Contributes q.name := by
  obtain ⟨config', types, chain, htypes, hchain, hsource⟩ := h.sourced hq
  have ofField : ∀ f ∈ chain.flatMap Class.instanceFields, q.name = f.name →
      ∃ d, Above (reached config ops).registry.classes c d ∧ d.Contributes q.name := by
    intro f hf hname
    obtain ⟨d, hd, hf⟩ := List.mem_flatMap.1 hf
    exact ⟨d, .inr ⟨chain, hchain, hd⟩, .inr ⟨f, (List.mem_filter.1 hf).1, hname.symm⟩⟩
  cases hsource with
  | accessors pair hpair hname =>
    obtain ⟨name, hin, rfl⟩ := List.mem_map.1 hpair
    obtain ⟨a, ha, rfl⟩ := List.mem_map.1 (List.mem_eraseDups.1 hin)
    obtain ⟨d, hd, ha⟩ := List.mem_flatMap.1 ha
    obtain ⟨hmethod, haccessor⟩ := accessors_declared ha
    refine ⟨d, .inl ⟨types, htypes, hd⟩, .inl ⟨_, hmethod, a.role, ?_⟩⟩
    rw [haccessor, hname]
  | holder f hf hname => exact ofField f hf hname
  | field f hf hname => exact ofField f hf hname

variable {fs : List Field} {f : Field}

/-- The name of a field finds the property of its accessors. -/
theorem property_found (h : ModelOf (reached config ops).registry c m k)
    (hkind : m.kind = .object ∨ m.kind = .generic) (hc : AccessorsOf c fs) (hf : f ∈ fs)
    (hn : NamedAfter fs f) :
    ∃ p, k.properties.find? (·.name = f.name) = some p ∧
      (∀ q ∈ k.properties, q.name = f.name → q = p) ∧ p.IsAccessorsOf f ∧
      p.isTransient = f.isTransient ∧
      ∃ ty, ClassTable.resolve f.type m.type (reached config ops).registry.classes =
          .ok ty (reached config ops).registry.classes ∧
        Scan.AnsweredFor p.model ty (reached config ops).registry := by
  obtain ⟨config', r, r', hv, hfound, hrun, -, hwithin', hmodels⟩ := h.scanned hkind
  obtain ⟨types, chain, n, htypes, -, hsourced⟩ := Scan.run_sourced hv hrun
  obtain ⟨rest, rfl⟩ := supertypes_eq_cons hfound htypes
  obtain ⟨p, hp, ty, hname, htransient, haccess, hvalue, hmodel⟩ :=
    Scan.run_pair hv htypes (hc.pair_mem hf hn config' rest) rfl rfl rfl rfl hrun
  have hfind : k.properties.find? (·.name = f.name) = some p := by
    have hown := find?_of_ordered hsourced.ordered hp
    rwa [hname] at hown
  refine ⟨p, hfind, fun q hq hqname => ?_, ⟨_, _, haccess, rfl, rfl⟩, ?_, ty, ?_,
    hmodel.later hwithin' hmodels⟩
  · have hown := find?_of_ordered hsourced.ordered hq
    rw [hqname, hfind] at hown
    exact (Option.some.inj hown).symm
  · rw [htransient]
    exact hc.isTransientIn_cons (hc.fields f hf) rest
  · exact resolve_replays f.type m.type _ _ _ _ hvalue hwithin'

end ModelOf

/-- A class whose methods are the generated accessors of fields. For every field that its accessors are
named after, the model has the one property of that name: it is transient if the field is, its model is
the one for the resolved type of the field, and what is written to it is kept in the slot of that name and
read again. Other names of properties come from fields, from accessors that are named after no field, or
from other supertypes. -/
theorem accessor_properties (config : Config) (ops : List Operation) {c : Class} {fs : List Field}
    {m : Model} {k : Contents} (hc : AccessorsOf c fs)
    (h : ModelOf (reached config ops).registry c m k)
    (hkind : m.kind = .object ∨ m.kind = .generic) :
    let s := reached config ops
    let t := s.registry.classes
    (∀ f ∈ fs, NamedAfter fs f → ∃ p, k.properties.find? (·.name = f.name) = some p ∧
      (∀ q ∈ k.properties, q.name = f.name → q = p) ∧ p.isTransient = f.isTransient ∧
      (∃ ty, ClassTable.resolve f.type m.type t = .ok ty t ∧
        Scan.AnsweredFor p.model ty s.registry) ∧
      ∀ ref v, s.registry.live = true → ref.cls = c.id → ref.index < s.heap.objects.size →
        ignoresWrite p (.object ref) v = false → s.registry.accepts p.model v = true →
        ∃ s', m.set (.object ref) f.name v s = .ok (.object ref) s' ∧
          s'.heap.slot? ref f.name = some v ∧ m.get (.object ref) f.name s' = .ok v s') ∧
    ∀ q ∈ k.properties, (∃ f ∈ fs, accessorProperty? f.name = some q.name) ∨
      (∃ f ∈ c.fields, f.name = q.name) ∨ ∃ d, d ≠ c ∧ Above t c d ∧ d.Contributes q.name := by
  intro s t
  refine ⟨fun f hf hn => ?_, fun q hq => ?_⟩
  · obtain ⟨p, hfind, hone, haccessors, htransient, hmodel⟩ := h.property_found hkind hc hf hn
    refine ⟨p, hfind, hone, htransient, hmodel, fun ref v hlive hcls hin hi ha => ?_⟩
    have hclass : t.find? ref.cls = some c := hcls ▸ h.declared
    obtain ⟨types, htypes⟩ : ∃ types, t.supertypes ref.cls = .ok types := by
      obtain ⟨config', types, chain, htypes, -⟩ := h.sourced (List.mem_of_find?_eq_some hfind)
      exact ⟨types, hcls ▸ htypes⟩
    let s' : Store := { s with heap := s.heap.setSlot ref f.name v }
    have hslot : s'.heap.slot? ref f.name = some v := by
      rw [Heap.slot?_setSlot hin, if_pos rfl]
    refine ⟨s', ?_, hslot, ?_⟩
    · rw [Model.set_of_property (h.property?_eq hkind f.name), hfind]
      exact setProperty_accessors hc hf hn haccessors hlive hclass htypes hi ha
    · rw [Model.get_of_property (s := s') (h.property?_eq hkind f.name), hfind]
      refine (getProperty_accessors (s := s') hc hf hn haccessors hlive hclass htypes).trans ?_
      unfold Heap.slotOrNull
      rw [hslot, Option.getD_some]
  · obtain ⟨d, habove, hd⟩ := h.contributed hq
    by_cases hdc : d = c
    · subst hdc
      rcases hd with ⟨method, hmethod, role, hname⟩ | hfield
      · obtain ⟨f, hf, role', rfl⟩ := hc.mem_methods.1 hmethod
        rw [accessor?_generated] at hname
        obtain ⟨name, hproperty, heq⟩ := Option.map_eq_some_iff.1 hname
        cases heq
        exact .inl ⟨f, hf, hproperty⟩
      · exact .inr (.inl hfield)
    · exact .inr (.inr ⟨d, hdc, habove, hd⟩)

/-- A card with a title and a mark. -/
theorem accessor_properties_card :
    let d := Declaration.accessor (Declaration.accessor (.plain ⟨"Card"⟩) "title" (.named .string))
      "done" (.named PrimitiveKind.bool.primitiveId)
    let c := d.draft.normalize
    let s := reached {} [.define d.draft, .of c.id, .onHeap fun t => discard (t.instantiate c.id)]
    let m := s.registry.models[0]?.getD default
    let k := (s.registry.contents? m).getD default
    let ref : Ref := ⟨c.id, 0⟩
    AccessorsOf c c.fields ∧ ModelOf s.registry c m k ∧ (∀ f ∈ c.fields, NamedAfter c.fields f) ∧
      k.properties.map (·.name) = ["done", "title"] ∧
      ∃ s', m.set (.object ref) "title" (.text "a") s = .ok (.object ref) s' ∧
        s'.heap.slot? ref "title" = some (.text "a") ∧
        m.get (.object ref) "title" s' = .ok (.text "a") s' := by
  intro d c s m k ref
  have hc : AccessorsOf c c.fields := ⟨rfl, fun _ hf => hf, by decide, rfl, rfl⟩
  have hm : ModelOf s.registry c m k :=
    ModelOf.of_place (reached_declared {} [] _ (by decide +kernel)) (by decide +kernel)
      (by decide +kernel) (by decide +kernel)
  have hnames : ∀ g ∈ c.fields, accessorProperty? g.name = some g.name := by
    intro g hg
    rcases List.mem_pair.1 hg with rfl | rfl
    · exact accessorProperty?_of_letter (c := 't') rfl (by decide) (by decide)
    · exact accessorProperty?_of_letter (c := 'd') rfl (by decide) (by decide)
  have hn : ∀ f ∈ c.fields, NamedAfter c.fields f := fun f hf => hc.namedAfter hnames hf
  refine ⟨hc, hm, hn, by decide +kernel, ?_⟩
  let f : Field := ⟨"title", .named .string, .privateOnly, false⟩
  have hf : f ∈ c.fields := List.mem_cons_self
  obtain ⟨p, hfind, -, -, -, hwritten⟩ :=
    (accessor_properties {} _ hc hm (by decide +kernel)).1 f hf (hn f hf)
  have hp : p = (k.properties.find? (·.name = "title")).getD default := by
    show p = (k.properties.find? (·.name = f.name)).getD default
    rw [hfind]
    rfl
  exact hwritten ref (.text "a") (by decide +kernel) rfl (by decide +kernel)
    (by rw [hp]; decide +kernel) (by rw [hp]; decide +kernel)

/-- A field whose name begins with an upper-case letter has a property under another name. -/
theorem accessor_property_renamed :
    let d := Declaration.accessor (.plain ⟨"Card"⟩) "Title" (.named .string)
    let c := d.draft.normalize
    let s := reached {} [.define d.draft, .of c.id]
    let m := s.registry.models[0]?.getD default
    let k := (s.registry.contents? m).getD default
    AccessorsOf c c.fields ∧ ModelOf s.registry c m k ∧ c.fields.map (·.name) = ["Title"] ∧
      k.properties.map (·.name) = ["title"] := by
  intro d c s m k
  have hc : AccessorsOf c c.fields := ⟨rfl, fun _ hf => hf, by decide, rfl, rfl⟩
  have hm : ModelOf s.registry c m k :=
    ModelOf.of_place (reached_declared {} [] _ (by decide +kernel)) (by decide +kernel)
      (by decide +kernel) (by decide +kernel)
  exact ⟨hc, hm, rfl, by decide +kernel⟩

end Introspect
