import Introspect.Proofs.Models.Declarations
import Introspect.Proofs.Models.Report

/-!
A lookup that failed for want of a class, and the same lookup after the class was declared.

* `Apart`: nothing names the array classes that only the lookups make.
* `failed_lookup_reported`: the later lookup shows what a registry without the failure shows, exactly when
  all it shows of the models that were left behind is current.
* `failed_lookup_outdated`: a class that stays an object although it is a list by now, since its superclass
  was declared too late.
-/

namespace Introspect

open Registry ClassTable TypeExpr

/-! ## Array classes that nothing names -/

/-- The expression names none of the classes that `v` and `w` have besides those of `t`. -/
def Avoids (t v w : ClassTable) (ty : TypeExpr) : Prop :=
  ∀ id ∈ ty.ids, v.contains id = true ∨ w.contains id = true → t.contains id = true

/-- What `v` and `w` have besides the classes of `t` does not clash, and neither the type nor a class of
`t` names it. -/
structure Apart (t v w : ClassTable) (ty : TypeExpr) : Prop where
  agree : Agree v w
  type : Avoids t v w ty
  classes : ∀ id c, t.find? id = some c → ∀ ty' ∈ c.mentions ++ c.component?.toList,
    Avoids t v w ty'

/-- Lookups that make no class at all. -/
theorem Apart.refl (t : ClassTable) (ty : TypeExpr) : Apart t t t ty where
  agree _ _ _ hc hd := Option.some.inj (hc.symm.trans hd)
  type _ _ h := h.elim id id
  classes _ _ _ _ _ _ _ h := h.elim id id

theorem Avoids.grounded {t v w : ClassTable} {ty : TypeExpr} (h : Avoids t v w ty) :
    Grounded (v.union w) t ty :=
  fun id hid hu => h id hid (contains_union hu)

theorem Apart.complete {t v w : ClassTable} {ty : TypeExpr} (h : Apart t v w ty) (ht : t.Within v)
    (hobject : t.contains .object = true) : Complete (v.union w) t where
  within := Within.trans _ _ _ ht (within_union_left v w)
  object := hobject
  mentions id c hc ty' hty' := (h.classes id c hc ty' (List.mem_append_left _ hty')).grounded
  components id c component hc hcomponent :=
    (h.classes id c hc component (List.mem_append_right _ (by simp [hcomponent]))).grounded

/-! ## What is left behind -/

namespace Registry

theorem leftover_of_grown {r r₁ : Registry} (hv : r.Valid) (hg : r.Grown r₁) (cs : List Class) :
    Leftover (r.declared cs) (r₁.declared cs) := by
  have ha := declared_declared r cs
  have hb := declared_declared r₁ cs
  exact
    { valid := ha.valid hv
      models := by rw [ha.models, hb.models]; exact hg.models
      left := fun m hm => by
        rw [hb.models] at hm
        rw [ha.models, ha.codecs]
        exact hg.codec hm
      contents := by rw [ha.contents, hb.contents, hg.contents]
      codecs := by rw [ha.codecs, hb.codecs, hg.codecs]
      config := by rw [ha.config, hb.config, hg.config]
      order := by rw [ha.order, hb.order, hg.order]
      live := by rw [ha.live, hb.live, hg.live] }

/-- The registries before both lookups, on tables within the union of those after them. -/
theorem pair_of_apart {r r₁ : Registry} {cs : List Class} {ty : TypeExpr} {w : ClassTable}
    (hv : r.Valid) (hv₁ : r₁.Valid) (hg : r.Grown r₁)
    (hobject : r.classes.contains .object = true)
    (hfresh : (r.declared cs).classes.Within (after (ofType ty) (r.declared cs)).classes)
    (hlater : (r₁.declared cs).classes.Within w)
    (hapart : Apart (r.declared cs).classes (after (ofType ty) (r.declared cs)).classes w ty) :
    let u := (after (ofType ty) (r.declared cs)).classes.union w
    Pair u (r.declared cs) (r₁.declared cs) (r.declared cs) (r₁.declared cs) ∧
      Both u (r.declared cs) (r₁.declared cs) ty := by
  intro u
  have ha := declared_declared r cs
  have hb := declared_declared r₁ cs
  have hcomplete : Complete u (r.declared cs).classes :=
    hapart.complete hfresh (ha.classes.contains hobject)
  have hext : (r.declared cs).classes.Extends (r₁.declared cs).classes :=
    declared_extends hg.classes cs (hapart.agree.of_within hfresh hlater)
  have hanchored : Anchored u (r₁.declared cs).classes :=
    hcomplete.toAnchored.extend hext
      (Within.trans _ _ _ hlater (within_union_right hapart.agree))
  refine ⟨⟨⟨ha.valid hv, hcomplete.toAnchored⟩, hcomplete, Grown.refl _, ⟨hb.valid hv₁, hanchored⟩,
    Grown.refl _⟩, hapart.type.grounded, ?_⟩
  exact hapart.type.grounded.mono hext.within

end Registry

/-! ## The later lookup -/

/-- A lookup fails in a reachable registry, classes are declared, and the lookup is made again and answers.
It then shows what it shows in a registry with the same declarations and no failure, exactly when every
model it shows that the failed lookup left behind has the kind that would be decided for it now. -/
theorem failed_lookup_reported {config : Config} {before : List Operation} {cs : List Class}
    {ty : TypeExpr} {e : Error} {failed r : Registry} {m : Model}
    (hfail : Registry.ofType ty (reached config before).registry = .error e failed)
    (hagain : Registry.ofType ty
      (reached config (before ++ .ofType ty :: cs.map .define)).registry = .ok m r)
    (hapart : let fresh := (reached config (before ++ cs.map .define)).registry
      Apart fresh.classes (after (Registry.ofType ty) fresh).classes r.classes ty) :
    (reached config (before ++ cs.map .define)).registry.report ty =
        (reached config (before ++ .ofType ty :: cs.map .define)).registry.report ty ↔
      ∀ n ∈ r.shown m, n ∈ failed.models → n ∉ (reached config before).registry.models →
        r.Current n := by
  have hv := reached_valid config before
  have hobject := reached_object config before
  have hfresh : (reached config (before ++ cs.map .define)).registry =
      (reached config before).registry.declared cs := by
    rw [reached_append, run_declarations]
  have hlater : (reached config (before ++ .ofType ty :: cs.map .define)).registry =
      failed.declared cs := by
    rw [reached_through, run_declarations, perform_ofType, after_of_error hfail]
  rw [hlater] at hagain ⊢
  rw [hfresh] at hapart ⊢
  generalize (reached config before).registry = start at hfail hapart hv hobject ⊢
  obtain ⟨hv₁, hg⟩ := ofType_failed hv hfail
  have ha := declared_declared start cs
  have hb := declared_declared failed cs
  have hwithin := (ofType_step ty (hb.valid hv₁)).classes
  rw [after_of_ok hagain] at hwithin
  obtain ⟨hpair, hboth⟩ := pair_of_apart hv hv₁ hg hobject (ofType_step ty (ha.valid hv)).classes
    hwithin hapart
  have hiff := report_iff (leftover_of_grown hv hg cs) hpair hboth hagain (within_union_left _ _)
    (within_union_right hapart.agree)
  rw [ha.models, hb.models] at hiff
  exact hiff

/-- A list of a class that is declared late: the list was left behind, and it is a list still. -/
theorem failed_lookup_reported_list :
    let item : Class := .bare ⟨"Item"⟩ (.primitive .int32 false)
    let items : TypeExpr := .apply .list [.named ⟨"Item"⟩]
    (reached {} [.define item]).registry.report items =
      (reached {} [.ofType items, .define item]).registry.report items := by
  intro item items
  obtain ⟨e, failed, hfail⟩ :
      ∃ e failed, Registry.ofType items (reached {} []).registry = .error e failed :=
    ⟨_, _, rfl⟩
  obtain ⟨m, r, hagain, hclasses, hcurrent⟩ :
      ∃ m r, Registry.ofType items (reached {} [.ofType items, .define item]).registry = .ok m r ∧
        r.classes = (reached {} [.define item]).registry.classes ∧
        ∀ n ∈ r.shown m, r.Current n :=
    ⟨_, _, rfl, rfl, by decide +kernel⟩
  have hsame : (after (Registry.ofType items) (reached {} [.define item]).registry).classes =
      (reached {} [.define item]).registry.classes := rfl
  have hapart : Apart (reached {} [.define item]).registry.classes
      (after (Registry.ofType items) (reached {} [.define item]).registry).classes r.classes items := by
    rw [hsame, hclasses]
    exact Apart.refl _ _
  exact (@failed_lookup_reported {} [] [item] items e failed r m hfail hagain hapart).2
    fun n hn _ _ => hcurrent n hn

/-- A class whose superclass, a list, is declared late: it was an object when the lookup failed, and it
stays one, while without the failure it is a list. -/
theorem failed_lookup_outdated :
    let names : Class :=
      { Class.bare ⟨"Names"⟩ .plain with superclass := some (.named ⟨"Base"⟩) }
    let base : Class :=
      { Class.bare ⟨"Base"⟩ .plain with interfaces := [.apply .list [.named .string]] }
    let ty : TypeExpr := .named ⟨"Names"⟩
    (reached {} [.define names]).registry.report ty = .failed (.unknownClass ⟨"Base"⟩) ∧
      (reached {} [.define names, .ofType ty, .define base]).registry.report ty =
        .found ⟨(.object, some (⟨"Names"⟩, [])), [], []⟩ ∧
      (reached {} [.define names, .define base]).registry.report ty =
        .found ⟨(.list, some (⟨"Names"⟩, [])), [], [(.scalar, some (.string, []))]⟩ := by
  decide +kernel

end Introspect
