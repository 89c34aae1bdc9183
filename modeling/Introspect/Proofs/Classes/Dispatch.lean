import Introspect.Classes.Instance
import Introspect.Proofs.Classes.Ancestry
import Introspect.Proofs.Classes.Members
import Mathlib.Data.List.Pairwise

/-!
Virtual dispatch: which class a called method is taken from.

The body is that of the first class among the supertypes that declares one, and the supertypes are ordered by
when a depth-first search meets them. Along the superclasses this puts the more specific class first. Between
interfaces it does not: an interface met early may be extended by one that is met later.

* `findMethod_eq`: the body that runs is that of the first declaring class.
* `not_descends_provider`: no superclass of the receiver that overrides the method is passed over.
* `mostSpecific_of_subtypesFirst`, `subtypesFirst_of_mostSpecific`: every override wins, whatever the classes declare, just
  when each class is met before all that it names as supertypes.
* `dispatch_specificity`: all of this for one receiver; `extended_interface_skipped`: an override that loses.
-/

namespace Introspect

namespace Class

/-- The body that the class itself declares. -/
def bodyOf? (c : Class) (name : String) (arity : Nat) : Option MethodBody :=
  (c.method? name arity).bind (·.body)

/-- The class with other methods. -/
def withMethods (methods : ClassId → List Method) (c : Class) : Class :=
  { c with methods := methods c.id }

end Class

namespace ClassTable

/-! ## The class that provides the body -/

/-- The first of the classes that declares a body. -/
def provider? (name : String) (arity : Nat) (cs : List Class) : Option Class :=
  cs.find? fun c => (c.bodyOf? name arity).isSome

theorem firstBody_eq (name : String) (arity : Nat) (cs : List Class) :
    firstBody name arity cs = (provider? name arity cs).bind (·.bodyOf? name arity) := by
  induction cs with
  | nil => rfl
  | cons c cs ih =>
    unfold firstBody provider? at ih ⊢
    rw [List.findSome?_cons, List.find?_cons, ← Class.bodyOf?]
    cases hb : c.bodyOf? name arity with
    | some body => exact hb.symm
    | none => exact ih

theorem findMethod_eq {t : ClassTable} {this : Value} {id : ClassId} {types : List Class}
    (hthis : this.runtimeClass? = some id) (hid : t.contains id = true)
    (htypes : t.supertypes id = .ok types) (name : String) (arity : Nat) :
    t.findMethod this name arity =
      .ok ((provider? name arity types).bind (·.bodyOf? name arity)) := by
  unfold findMethod
  rw [hthis]
  simp only [hid, if_true, htypes]
  rw [Except.map, firstBody_eq]

theorem findMethod_cases (t : ClassTable) (this : Value) :
    (∀ name arity, t.findMethod this name arity = .ok none) ∨
      ∃ c, this.runtimeClass? = some c.id ∧ t.find? c.id = some c := by
  unfold findMethod
  cases hid : this.runtimeClass? with
  | none => exact .inl fun _ _ => rfl
  | some id =>
    cases hc : t.find? id with
    | none => exact .inl fun _ _ => by simp [contains, hc]
    | some c =>
      obtain rfl : c.id = id := find?_id hc
      exact .inr ⟨c, rfl, hc⟩

/-- Nothing before the providing class declares a body. -/
theorem provider?_eq_some {name : String} {arity : Nat} {cs : List Class} {c : Class}
    (h : provider? name arity cs = some c) :
    (c.bodyOf? name arity).isSome = true ∧
      ∃ before rest, cs = before ++ c :: rest ∧ ∀ d ∈ before, d.bodyOf? name arity = none := by
  obtain ⟨hc, before, rest, hcs, hnone⟩ := List.find?_eq_some_iff_append.1 h
  exact ⟨hc, before, rest, hcs, fun d hd => by simpa using hnone d hd⟩

/-! ## Superclasses -/

/-- No class of the chain that declares a body lies below the one that provides it. -/
theorem not_descends_provider {t : ClassTable} (hacyclic : t.Acyclic) {c : Class}
    (hc : t.find? c.id = some c) {types chain : List Class} (htypes : t.supertypes c.id = .ok types)
    (hchain : t.superclassChain c = .ok chain) {name : String} {arity : Nat} {provider : Class}
    (h : provider? name arity types = some provider) {d : Class} (hd : d ∈ chain)
    (hbelow : t.Descends d.id provider.id) : d.bodyOf? name arity = none := by
  obtain ⟨-, before, rest, htypes', hbefore⟩ := provider?_eq_some h
  have hprefix : chain <+: before ++ provider :: rest := by
    have hvisit := visit_chainFrom hc hchain (fun _ _ => rfl) htypes
    rwa [List.reverse_nil, List.nil_append, htypes'] at hvisit
  rcases List.prefix_or_prefix_of_prefix hprefix (List.prefix_append _ _) with hshort | ⟨later, rfl⟩
  · exact hbefore d (hshort.subset hd)
  · have hlater := (List.prefix_append_right_inj before).1 hprefix
    rcases List.mem_append.1 hd with hd | hd
    · exact hbefore d hd
    -- what the chain holds from the provider on lies above it
    · exfalso
      cases later with
      | nil => cases hd
      | cons first later =>
        cases (List.cons_prefix_cons.1 hlater).1
        rcases List.mem_cons.1 hd with rfl | hd
        · exact hacyclic _ hbelow
        · have hpairs := (List.pairwise_append.1 (descends_of_chainFrom hc hchain)).2.1
          have habove := (List.pairwise_cons.1 hpairs).1 d hd
          exact hacyclic _ (habove.trans hbelow)

/-! ## All supertypes -/

/-- No class comes after one that it names as its supertype. -/
def SubtypesFirst (t : ClassTable) (types : List Class) : Prop :=
  types.Pairwise fun earlier later => ¬ t.Direct later.id earlier.id

instance (t : ClassTable) (types : List Class) : Decidable (t.SubtypesFirst types) :=
  inferInstanceAs (Decidable (types.Pairwise _))

/-- A call on the receiver runs the body that `c` declares, the first of its supertypes that does. -/
def Runs (t : ClassTable) (this : Value) (name : String) (arity : Nat) (c : Class) : Prop :=
  ∃ id types, this.runtimeClass? = some id ∧ t.supertypes id = .ok types ∧
    provider? name arity types = some c ∧ t.findMethod this name arity = .ok (c.bodyOf? name arity)

/-- Whatever is called on the receiver, no supertype of it that declares a body lies below the one whose
body runs. -/
def MostSpecific (t : ClassTable) (this : Value) : Prop :=
  ∀ name arity c, t.Runs this name arity c →
    ∀ id types, this.runtimeClass? = some id → t.supertypes id = .ok types →
      ∀ d ∈ types, t.Descends d.id c.id → d.bodyOf? name arity = none

theorem runs_of_provider {t : ClassTable} {this : Value} {id : ClassId} {types : List Class}
    (hthis : this.runtimeClass? = some id) (htypes : t.supertypes id = .ok types) {name : String}
    {arity : Nat} {c : Class} (h : provider? name arity types = some c) :
    t.Runs this name arity c := by
  obtain ⟨d, hd⟩ := find?_of_supertypes htypes
  refine ⟨id, types, hthis, htypes, h, ?_⟩
  rw [findMethod_eq hthis (contains_iff.2 ⟨d, hd⟩) htypes, h, Option.bind_some]

theorem pairwise_of_splits {α : Type} {R : α → α → Prop} {l : List α}
    (h : ∀ before a rest, l = before ++ a :: rest → ∀ b ∈ rest, R a b) : l.Pairwise R := by
  induction l with
  | nil => exact .nil
  | cons a l ih =>
    refine List.pairwise_cons.2 ⟨h [] a l rfl, ih fun before b rest hsplit => ?_⟩
    exact h (a :: before) b rest (by rw [hsplit, List.cons_append])

/-- Then every subtype of a class that is met precedes it. -/
theorem SubtypesFirst.descends_mem {t : ClassTable} (hacyclic : t.Acyclic) {id : ClassId}
    {before rest : List Class} {c : Class} (htypes : t.supertypes id = .ok (before ++ c :: rest))
    (hfirst : t.SubtypesFirst (before ++ c :: rest)) {a : ClassId} (ha : t.Descends a c.id) :
    ∀ d ∈ before ++ c :: rest, d.id = a → d ∈ before := by
  have hcross := (List.pairwise_append.1 hfirst).2.2
  have hlater := (List.pairwise_cons.1 (List.pairwise_append.1 hfirst).2.1).1
  induction ha using Relation.TransGen.head_induction_on with
  | single hdirect =>
    rintro d hd rfl
    rcases List.mem_append.1 hd with hd | hd
    · exact hd
    · rcases List.mem_cons.1 hd with rfl | hd
      · exact absurd (.single hdirect) (hacyclic _)
      · exact absurd hdirect (hlater d hd)
  | head hdirect hbelow ih =>
    rintro d hd rfl
    -- the next class on the way to `c` is met before `c`
    obtain ⟨e, he, heid⟩ := direct_mem_of_supertypes htypes hd hdirect
    have hbefore : e ∈ before := ih e he heid
    rcases List.mem_append.1 hd with hd | hd
    · exact hd
    · rcases List.mem_cons.1 hd with rfl | hd'
      · exact absurd (.head hdirect hbelow) (hacyclic _)
      · exact absurd (heid ▸ hdirect) (hcross e hbefore d hd)

theorem mostSpecific_of_subtypesFirst {t : ClassTable} (hacyclic : t.Acyclic) {this : Value}
    {id : ClassId} {types : List Class} (hthis : this.runtimeClass? = some id)
    (htypes : t.supertypes id = .ok types) (hfirst : t.SubtypesFirst types) : t.MostSpecific this := by
  rintro name arity c ⟨id₁, types₁, hid₁, htypes₁, h, -⟩ id₂ types₂ hid₂ htypes₂ d hd hbelow
  cases hthis.symm.trans hid₁
  cases hthis.symm.trans hid₂
  cases htypes.symm.trans htypes₁
  cases htypes.symm.trans htypes₂
  obtain ⟨-, before, rest, rfl, hbefore⟩ := provider?_eq_some h
  exact hbefore d (hfirst.descends_mem hacyclic htypes hbelow d hd rfl)

/-! ## Other methods in the same hierarchy -/

/-- The same hierarchy with other methods. -/
def withMethods (t : ClassTable) (methods : ClassId → List Method) : ClassTable :=
  ⟨t.classes.map (Class.withMethods methods)⟩

theorem withMethods_membersOnly (methods : ClassId → List Method) :
    MembersOnly (Class.withMethods methods) :=
  fun _ => rfl

theorem direct_withMethods {t : ClassTable} {methods : ClassId → List Method} {a b : ClassId}
    (h : t.Direct a b) : (t.withMethods methods).Direct a b := by
  obtain ⟨c, hc, hb⟩ := h
  have hfound := find?_mapClasses (withMethods_membersOnly methods) t a
  rw [hc] at hfound
  exact ⟨c.withMethods methods, hfound, hb⟩

theorem supertypes_withMethods {t : ClassTable} (methods : ClassId → List Method) {id : ClassId}
    {types : List Class} (h : t.supertypes id = .ok types) :
    (t.withMethods methods).supertypes id = .ok (types.map (Class.withMethods methods)) := by
  have hall := supertypes_mapClasses (withMethods_membersOnly methods) t id
  rw [h] at hall
  exact hall

/-- A method without parameters. -/
def probe (name : String) : Method := ⟨name, [], none, .publicOnly, some MethodBody.receiver⟩

/-- The method is declared by two classes only. -/
def probeIn (a b : ClassId) (id : ClassId) : List Method :=
  if id = a ∨ id = b then [probe "probe"] else []

theorem bodyOf?_probeIn (a b : ClassId) (c : Class) :
    ((c.withMethods (probeIn a b)).bodyOf? "probe" 0).isSome = true ↔ c.id = a ∨ c.id = b := by
  by_cases h : c.id = a ∨ c.id = b
  · refine iff_of_true ?_ h
    simp [Class.withMethods, probeIn, h, Class.bodyOf?, Class.method?, probe, Method.arity]
  · refine iff_of_false ?_ h
    simp [Class.withMethods, probeIn, h, Class.bodyOf?, Class.method?]

/-- A class that is met before one that extends it hides an override. -/
theorem subtypesFirst_of_mostSpecific {t : ClassTable} {this : Value} {id : ClassId} {types : List Class}
    (hthis : this.runtimeClass? = some id) (htypes : t.supertypes id = .ok types)
    (h : ∀ methods, (t.withMethods methods).MostSpecific this) : t.SubtypesFirst types := by
  refine pairwise_of_splits fun before a rest hsplit b hb hdirect => ?_
  subst hsplit
  have hnodup := supertypes_nodup htypes
  rw [List.map_append, List.map_cons] at hnodup
  obtain ⟨-, hrest, hcross⟩ := List.nodup_append.1 hnodup
  have hprovider : provider? "probe" 0
      ((before ++ a :: rest).map (Class.withMethods (probeIn a.id b.id))) =
        some (a.withMethods (probeIn a.id b.id)) := by
    rw [List.map_append, List.map_cons]
    refine List.find?_eq_some_iff_append.2 ⟨(bodyOf?_probeIn ..).2 (.inl rfl), _, _, rfl, ?_⟩
    intro _ hmem
    obtain ⟨d, hd, rfl⟩ := List.mem_map.1 hmem
    have hd' := hcross d.id (List.mem_map_of_mem hd)
    rw [Bool.not_eq_true', ← Bool.not_eq_true, bodyOf?_probeIn]
    rintro (heq | heq)
    · exact hd' a.id (List.mem_cons_self ..) heq
    · exact hd' b.id (List.mem_cons_of_mem _ (List.mem_map_of_mem hb)) heq
  have htypes' := supertypes_withMethods (probeIn a.id b.id) htypes
  have hnone := h (probeIn a.id b.id) _ _ _ (runs_of_provider hthis htypes' hprovider) _ _ hthis htypes'
    (b.withMethods (probeIn a.id b.id))
    (List.mem_map_of_mem (List.mem_append_right _ (List.mem_cons_of_mem _ hb)))
    (.single (direct_withMethods hdirect))
  have hsome := (bodyOf?_probeIn a.id b.id b).2 (.inr rfl)
  rw [hnone] at hsome
  cases hsome

/-! ## The answer of a search -/

/-- A search for a method answers with the body of the first supertype that declares one; there is none for a
receiver without a declared class. No superclass of the receiver that lies below that supertype declares the
method too. No supertype at all does, whatever methods the classes declare, just when no supertype is met before
one that names it. -/
theorem dispatch_specificity {t : ClassTable} (hacyclic : t.Acyclic) (hdecl : t.SupertypesDeclared)
    (this : Value) :
    (∀ name arity, t.findMethod this name arity = .ok none) ∨
    ∃ c types chain, this.runtimeClass? = some c.id ∧ t.find? c.id = some c ∧
      t.supertypes c.id = .ok types ∧ t.superclassChain c = .ok chain ∧
      (∀ name arity,
        (t.findMethod this name arity = .ok none ∧ ∀ d ∈ types, d.bodyOf? name arity = none) ∨
        ∃ provider, t.Runs this name arity provider ∧
          ∀ d ∈ chain, t.Descends d.id provider.id → d.bodyOf? name arity = none) ∧
      (t.SubtypesFirst types → t.MostSpecific this) ∧
      ((∀ methods, (t.withMethods methods).MostSpecific this) → t.SubtypesFirst types) := by
  rcases findMethod_cases t this with hnone | ⟨c, hthis, hc⟩
  · exact .inl hnone
  have hin : t.contains c.id = true := contains_iff.2 ⟨c, hc⟩
  obtain ⟨types, htypes⟩ := supertypes_total hdecl hin
  obtain ⟨chain, hchain⟩ := superclassChain_total hdecl hc (hacyclic.not_loops c.id)
  refine .inr ⟨c, types, chain, hthis, hc, htypes, hchain, fun name arity => ?_,
    mostSpecific_of_subtypesFirst hacyclic hthis htypes, subtypesFirst_of_mostSpecific hthis htypes⟩
  cases h : provider? name arity types with
  | none =>
    refine .inl ⟨?_, fun d hd => ?_⟩
    · rw [findMethod_eq hthis hin htypes, h, Option.bind_none]
    · simpa using List.find?_eq_none.1 h d hd
  | some provider =>
    exact .inr ⟨provider, runs_of_provider hthis htypes h,
      fun d hd => not_descends_provider hacyclic hc htypes hchain h hd⟩

/-! ## An interface that extends another -/

def greeterClass : Class :=
  { Class.bare ⟨"Greeter"⟩ .interface with
    methods := [⟨"greet", [], none, .publicOnly, some (.constant (.text "hello"))⟩] }

/-- Overrides the method of the interface it extends. -/
def shouterClass : Class :=
  { Class.bare ⟨"Shouter"⟩ .interface with
    interfaces := [.named ⟨"Greeter"⟩]
    methods := [⟨"greet", [], none, .publicOnly, some (.constant (.text "HELLO"))⟩] }

def robotClass (interfaces : List TypeExpr) : Class :=
  { Class.bare ⟨"Robot"⟩ .plain with superclass := some .object, interfaces := interfaces }

def robotTable (interfaces : List TypeExpr) : ClassTable :=
  ⟨robotClass interfaces :: shouterClass :: greeterClass :: builtin.classes⟩

/-- Distance from the classes without supertypes. -/
def robotRank (id : ClassId) : Nat :=
  if id ∈ [.object, .list, .map, ⟨"Greeter"⟩] then 0 else if id = ⟨"Shouter"⟩ then 1 else 2

/-- The extending interface is named first: its method runs. -/
theorem dispatch_specificity_robot :
    let t := robotTable [.named ⟨"Shouter"⟩, .named ⟨"Greeter"⟩]
    let this : Value := .object ⟨⟨"Robot"⟩, 0⟩
    t.Acyclic ∧ t.SupertypesDeclared ∧ t.Runs this "greet" 0 shouterClass ∧ t.MostSpecific this := by
  intro t this
  have hacyclic : t.Acyclic := .of_rank robotRank (by decide +kernel)
  have hdecl : t.SupertypesDeclared := .of_classes (by decide +kernel)
  have hvisited : t.supertypes ⟨"Robot"⟩ =
      .ok [robotClass [.named ⟨"Shouter"⟩, .named ⟨"Greeter"⟩], .bare .object .plain, shouterClass, greeterClass] := by
    rw [supertypes, visit_found rfl rfl, visit_found rfl rfl, visit_found rfl rfl, visit_found rfl rfl,
      visit_nil rfl]
    rfl
  have hruns : t.Runs this "greet" 0 shouterClass := runs_of_provider rfl hvisited rfl
  rcases dispatch_specificity hacyclic hdecl this with hnone | ⟨c, types, chain, hthis, -, htypes, -, -, h, -⟩
  · obtain ⟨-, -, -, -, -, hfound⟩ := hruns
    cases (hnone "greet" 0).symm.trans hfound
  · rw [← Option.some.inj hthis] at htypes
    cases htypes.symm.trans hvisited
    exact ⟨hacyclic, hdecl, hruns, h (by decide +kernel)⟩

/-- The extended interface is named first: its method runs, although the other one overrides it. -/
theorem extended_interface_skipped :
    let interfaces : List TypeExpr := [.named ⟨"Greeter"⟩, .named ⟨"Shouter"⟩]
    let this : Value := .object ⟨⟨"Robot"⟩, 0⟩
    (do (← (← builtin.define greeterClass).define shouterClass).define (robotClass interfaces)) =
        .ok (robotTable interfaces) ∧
      (robotTable interfaces).Acyclic ∧ (robotTable interfaces).SupertypesDeclared ∧
      (∀ h, (robotTable interfaces).invoke this "greet" [] h = .ok (.text "hello") h) ∧
      (robotTable interfaces).Runs this "greet" 0 greeterClass ∧
      (robotTable interfaces).Descends shouterClass.id greeterClass.id ∧
      ¬ (robotTable interfaces).MostSpecific this := by
  intro interfaces this
  have hacyclic : (robotTable interfaces).Acyclic := .of_rank robotRank (by decide +kernel)
  have hdecl : (robotTable interfaces).SupertypesDeclared := .of_classes (by decide +kernel)
  have htypes : (robotTable interfaces).supertypes ⟨"Robot"⟩ =
      .ok [robotClass interfaces, .bare .object .plain, greeterClass, shouterClass] := by
    rw [supertypes, visit_found rfl rfl, visit_found rfl rfl, visit_found rfl rfl, visit_found rfl rfl,
      visit_nil rfl]
    rfl
  have hruns : (robotTable interfaces).Runs this "greet" 0 greeterClass :=
    runs_of_provider rfl htypes rfl
  have hbelow : (robotTable interfaces).Descends shouterClass.id greeterClass.id :=
    .single ⟨shouterClass, rfl, List.mem_cons_self ..⟩
  refine ⟨rfl, hacyclic, hdecl, fun h => ?_, hruns, hbelow, fun hspecific => ?_⟩
  · obtain ⟨-, -, -, -, -, hfound⟩ := hruns
    exact bind_of_ok (ofExcept_eq_ok_iff.2 ⟨hfound, rfl⟩)
  · have hnone := hspecific _ _ _ hruns _ _ rfl htypes shouterClass (by simp) hbelow
    cases hnone

end ClassTable
end Introspect
