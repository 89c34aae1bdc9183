import Introspect.Proofs.Classes.Assignability
import Introspect.Proofs.Indistinct

/-!
Class tables with other members.

The search along a hierarchy and the resolution of types read the headers of classes only: their ids, kinds,
type parameters and supertypes. Two tables that differ in methods and fields alone cannot be told apart by
them.

* `MembersOnly`: a map of classes that changes nothing but methods and fields.
* `supertypes_mapClasses`, `isAssignable_mapClasses`, `chainWithin_mapClasses`: the hierarchy of the changed table.
* `collectParameters_mapClasses`: so are the arguments that a type supplies.
* `resolve_indistinct`: over tables that look the same every type resolves the same.
-/

namespace Introspect

/-- The map changes nothing but methods and fields. -/
def MembersOnly (g : Class → Class) : Prop :=
  ∀ c, g c = { c with methods := (g c).methods, fields := (g c).fields }

namespace MembersOnly

variable {g : Class → Class} (hg : MembersOnly g)
include hg

/-- What does not depend on the members stays. -/
theorem keeps (c : Class) {α : Type} {f : Class → α}
    (hf : ∀ c methods fields, f { c with methods := methods, fields := fields } = f c) : f (g c) = f c :=
  (congrArg f (hg c)).trans (hf c _ _)

/-- Classes that look the same agree on what does not depend on the members. -/
theorem alike {c d : Class} (h : g c = g d) {α : Type} {f : Class → α}
    (hf : ∀ c methods fields, f { c with methods := methods, fields := fields } = f c) : f c = f d := by
  rw [← hg.keeps c hf, h, hg.keeps d hf]

theorem id (c : Class) : (g c).id = c.id := hg.keeps c fun _ _ _ => rfl

theorem supertypeIds (c : Class) : (g c).supertypeIds = c.supertypeIds := hg.keeps c fun _ _ _ => rfl

theorem superclassId? (c : Class) : (g c).superclassId? = c.superclassId? :=
  hg.keeps c fun _ _ _ => rfl

theorem isStrictPrimitive (c : Class) : (g c).isStrictPrimitive = c.isStrictPrimitive :=
  hg.keeps c fun _ _ _ => rfl

theorem sameScope (c : Class) : (g c).SameScope c :=
  ⟨hg.id c, hg.keeps c fun _ _ _ => rfl, hg.keeps c fun _ _ _ => rfl⟩

theorem sameScope_of_eq {c d : Class} (h : g c = g d) : c.SameScope d :=
  ⟨hg.alike h fun _ _ _ => rfl, hg.alike h fun _ _ _ => rfl, hg.alike h fun _ _ _ => rfl⟩

end MembersOnly

namespace ClassTable

/-- The table with each class changed. -/
def mapClasses (g : Class → Class) (t : ClassTable) : ClassTable := ⟨t.classes.map g⟩

section

variable {g : Class → Class} (hg : MembersOnly g) (t : ClassTable)
include hg

/-! ## Hierarchy -/

theorem find?_mapClasses (id : ClassId) : (t.mapClasses g).find? id = (t.find? id).map g := by
  unfold mapClasses find?
  rw [List.find?_map]
  congr 2
  funext c
  simp only [Function.comp_apply, hg.id]

theorem contains_mapClasses (id : ClassId) : (t.mapClasses g).contains id = t.contains id := by
  unfold contains
  rw [find?_mapClasses hg, Option.isSome_map]

theorem lookup_mapClasses (id : ClassId) : (t.mapClasses g).lookup id = (t.lookup id).map g := by
  unfold lookup
  rw [find?_mapClasses hg]
  cases t.find? id <;> rfl

theorem isVisited_map (visited : List Class) : isVisited (visited.map g) = isVisited visited := by
  funext id
  simp only [isVisited, List.any_map, Function.comp_def, hg.id]

theorem visit_mapClasses (stack : List ClassId) (visited : List Class) :
    (t.mapClasses g).visit stack (visited.map g) = (t.visit stack visited).map (List.map g) := by
  fun_induction t.visit stack visited with
  | case1 stack visited hs =>
    rw [visit_nil (by rw [isVisited_map hg]; exact hs), ← List.map_reverse]
    rfl
  | case2 stack visited id rest hs e he =>
    exact visit_unknown (by rw [isVisited_map hg]; exact hs) (by rw [lookup_mapClasses hg, he]; rfl)
  | case3 stack visited id rest hs c hc ih =>
    rw [visit_found (by rw [isVisited_map hg]; exact hs) (by rw [lookup_mapClasses hg, hc]; rfl),
      hg.supertypeIds]
    exact ih

theorem supertypes_mapClasses (id : ClassId) :
    (t.mapClasses g).supertypes id = (t.supertypes id).map (List.map g) :=
  visit_mapClasses hg t [id] []

theorem hasSupertype_mapClasses : (t.mapClasses g).hasSupertype = t.hasSupertype := by
  funext source target
  unfold hasSupertype
  rw [supertypes_mapClasses hg]
  cases t.supertypes source with
  | error e => rfl
  | ok cs => exact congrFun (isVisited_map hg cs) target

theorem isAssignable_mapClasses : (t.mapClasses g).isAssignable = t.isAssignable := by
  funext target source
  unfold isAssignable
  rw [find?_mapClasses hg, hasSupertype_mapClasses hg]
  cases t.find? source with
  | none => rfl
  | some c => simp only [Option.map_some, hg.isStrictPrimitive]

theorem chainWithin_mapClasses (n : Nat) (c : Class) :
    (t.mapClasses g).chainWithin n (g c) = (t.chainWithin n c).map g := by
  induction n generalizing c with
  | zero => rfl
  | succ n ih =>
    unfold chainWithin
    rw [hg.superclassId?]
    cases c.superclassId? with
    | none => rfl
    | some id =>
      simp only [Option.bind_some, find?_mapClasses hg]
      cases t.find? id with
      | none => rfl
      | some p => simp only [Option.map_some, ih, List.map_cons]

/-! ## Parameters -/

theorem searchParameters_mapClasses (target : ClassId) (n : Nat) :
    (t.mapClasses g).searchParameters target n = t.searchParameters target n := by
  induction n with
  | zero => rfl
  | succ n ih =>
    funext ty
    unfold searchParameters
    rw [ih]
    cases ty.parts? with
    | none => rfl
    | some p =>
      obtain ⟨raw, args⟩ := p
      simp only [lookup_mapClasses hg]
      cases t.lookup raw with
      | error e => rfl
      | ok c =>
        have hsupers : (g c).supertypes.map (TypeExpr.substitute (g c) args) =
            c.supertypes.map (TypeExpr.substitute c args) := by
          rw [(hg.sameScope c).supertypes]
          exact List.map_congr_left fun ty _ => TypeExpr.substitute_congr (hg.sameScope c) args ty
        simp only [Except.map, hsupers]

theorem collectParameters_mapClasses : (t.mapClasses g).collectParameters = t.collectParameters := by
  funext ty target
  unfold collectParameters
  rw [searchParameters_mapClasses hg]

end

/-! ## Tables that look the same -/

section

variable {g : Class → Class} (hg : MembersOnly g) {t u : ClassTable}
  (h : t.mapClasses g = u.mapClasses g)
include hg h

theorem lookup_alike (id : ClassId) : (t.lookup id).map g = (u.lookup id).map g := by
  rw [← lookup_mapClasses hg, h, lookup_mapClasses hg]

theorem contains_alike (id : ClassId) : t.contains id = u.contains id := by
  rw [← contains_mapClasses hg, h, contains_mapClasses hg]

theorem supertypes_alike (id : ClassId) :
    (t.supertypes id).map (List.map g) = (u.supertypes id).map (List.map g) := by
  rw [← supertypes_mapClasses hg, h, supertypes_mapClasses hg]

theorem chainWithin_alike {c d : Class} (hcd : g c = g d) :
    (t.chainWithin (t.size + 1) c).map g = (u.chainWithin (u.size + 1) d).map g := by
  have hsize : t.size = u.size := by
    have hlength := congrArg size h
    simpa [size, mapClasses] using hlength
  rw [← chainWithin_mapClasses hg, h, hcd, chainWithin_mapClasses hg, hsize]

theorem isAssignable_alike : t.isAssignable = u.isAssignable := by
  rw [← isAssignable_mapClasses hg, h, isAssignable_mapClasses hg]

theorem collectParameters_alike : t.collectParameters = u.collectParameters := by
  rw [← collectParameters_mapClasses hg, h, collectParameters_mapClasses hg]

end

/-! ## Resolution -/

variable {g : Class → Class} (hg : MembersOnly g)
include hg

theorem arrayOf_indistinct (component : TypeExpr) :
    Indistinct (mapClasses g) id (arrayOf component) (arrayOf component) := by
  intro t u h
  have hintern : (t.intern (arrayClass component)).mapClasses g =
      (u.intern (arrayClass component)).mapClasses g := by
    unfold intern
    rw [contains_alike hg h]
    split
    · exact h
    · exact congrArg (fun v : ClassTable => ClassTable.mk (g (arrayClass component) :: v.classes)) h
  have made : seen (mapClasses g) id
      (.ok (arrayId component) (t.intern (arrayClass component)) : EStateM.Result Error ClassTable ClassId) =
      seen (mapClasses g) id (.ok (arrayId component) (u.intern (arrayClass component))) :=
    congrArg (EStateM.Result.ok (arrayId component)) hintern
  unfold arrayOf
  cases component.raw? with
  | none => exact made
  | some raw =>
    simp only [Option.map_some]
    rcases except_map_eq_map (lookup_alike hg h raw) with ⟨e, ht, hu⟩ | ⟨c, d, ht, hu, -⟩
    · rw [ht, hu]
      exact congrArg (EStateM.Result.error e) h
    · rw [ht, hu]
      exact made

/-- A class of the table is looked up, and only its scope is used. -/
theorem scoped_indistinct {α : Type} {owner : ClassId} {f f' : ClassTable → Class → TableM α}
    (hf : ∀ t u c d, t.mapClasses g = u.mapClasses g → c.SameScope d →
      Indistinct (mapClasses g) id (f t c) (f' u d)) :
    Indistinct (mapClasses g) id (do let t ← get; f t (← ofExcept (t.lookup owner)))
      (do let t ← get; f' t (← ofExcept (t.lookup owner))) :=
  Indistinct.get fun t u h =>
    (Indistinct.ofExcept (lookup_alike hg h owner)).bind fun c d hcd => hf t u c d h (hg.sameScope_of_eq hcd)

theorem arrayType_indistinct {x : TableM TypeExpr} (hx : Indistinct (mapClasses g) id x x) :
    Indistinct (mapClasses g) id (do return .named (← arrayOf (← x)) : TableM TypeExpr)
      (do return .named (← arrayOf (← x))) :=
  hx.bind_id fun component => (arrayOf_indistinct hg component).bind_id fun _ => Indistinct.pure rfl

theorem eraseAt_indistinct (n : Nat) (ty : TypeExpr) :
    Indistinct (mapClasses g) id (eraseAt n ty) (eraseAt n ty) := by
  induction n generalizing ty with
  | zero => exact Indistinct.throw _
  | succ n ih =>
    cases ty with
    | named id => exact Indistinct.pure rfl
    | apply raw args => exact Indistinct.pure rfl
    | wildcard lower upper =>
      cases upper with
      | nil => exact Indistinct.pure rfl
      | cons bound rest => exact ih bound
    | var owner name =>
      simp only [eraseAt]
      refine scoped_indistinct hg fun t u c d _ hcd => ?_
      rw [hcd.typeParamIndex? name, hcd.typeParams]
      split
      · exact ih _
      · exact Indistinct.pure rfl
    | array component => exact arrayType_indistinct hg (ih component)

theorem eraseBound_indistinct (n : Nat) (c : Class) (index : Nat) :
    Indistinct (mapClasses g) id (eraseBound n c index) (eraseBound n c index) := by
  unfold eraseBound
  split
  · exact eraseAt_indistinct hg n _
  · exact Indistinct.pure rfl

theorem resolveAt_indistinct (n : Nat) (ty site : TypeExpr) :
    Indistinct (mapClasses g) id (resolveAt n ty site) (resolveAt n ty site) := by
  induction n generalizing ty with
  | zero => exact Indistinct.throw _
  | succ n ih =>
    cases ty with
    | named id => exact Indistinct.pure rfl
    | apply raw args =>
      simp only [resolveAt]
      have hargs : Indistinct (mapClasses g) (List.map id) (args.mapM fun arg => resolveAt n arg site)
          (args.mapM fun arg => resolveAt n arg site) := Indistinct.mapM fun arg _ => ih arg
      rw [List.map_id_fun] at hargs
      exact hargs.bind_id fun _ => Indistinct.pure rfl
    | wildcard lower upper =>
      simp only [resolveAt]
      split
      · exact ih _
      · exact Indistinct.pure rfl
    | var owner name =>
      simp only [resolveAt]
      refine scoped_indistinct hg fun t u c d h hcd => ?_
      rw [hcd.typeParamIndex? name]
      cases d.typeParamIndex? name with
      | none => exact Indistinct.throw _
      | some index =>
        simp only [collectParameters_alike hg h, eraseBound_congr hcd]
        refine (Indistinct.ofExcept rfl).bind_id fun params => ?_
        split
        · exact Indistinct.ite (eraseBound_indistinct hg n d index) (ih _)
        · exact eraseBound_indistinct hg n d index
    | array component => exact arrayType_indistinct hg (ih component)

theorem resolve_indistinct (ty site : TypeExpr) :
    Indistinct (mapClasses g) id (resolve ty site) (resolve ty site) :=
  resolveAt_indistinct hg _ ty site

end ClassTable
end Introspect
