import Introspect.Proofs.Models.Redirection

/-!
Models of synthetic classes.

A synthetic class with a superclass has no model of its own: every type on the way of a search leads to the
model that it ends with.

* `synthetic_classes_share_models`: the model of every type on the way.
* `synthetic_model_outgrown`: an ancestor that is asked for after its synthetic subclass.
-/

namespace Introspect

open Relation

namespace Registry

open ClassTable TypeExpr

/-! ## Shared models -/

theorem modelOf_of_resolved {ty : TypeExpr} (h : Resolved (depthLimit + 1) ty) (r : Registry) :
    modelOf ty r = modelFor ty r :=
  modelOf_of_unchanged (resolveAt_of_resolved h ty r.classes)

/-- A cached model is of a class that gives way to no other. -/
theorem Valid.not_synthetic {r : Registry} (hv : r.Valid) {m : Model} (hm : m ∈ r.models) {c : Class}
    (hc : r.classes.find? m.raw = some c) : c.synthetic = true → c.superclass = none := by
  have he := hv.entry m hm
  have hcls : c = m.cls := Option.some.inj (hc.symm.trans he.cls)
  rw [hcls]
  exact Class.redirect?_eq_none_iff.1 he.direct

end Registry

open Registry ClassTable TypeExpr

/-- No cached model is of a synthetic class with a superclass. A lookup of a concrete type that is answered goes
along the superclasses of synthetic classes to a class that gives way to no other, and answers a model of that
class. Asked for in place of the first type, every type on the way gets the same model and leaves the same
registry behind; asked for afterwards it gets the same model again, unless that model was found without the
type arguments and its class turned out to be a list or a map since. -/
theorem synthetic_classes_share_models (config : Config) (ops : List Operation) :
    let r := (reached config ops).registry
    (∀ m ∈ r.models, ∀ c, r.classes.find? m.raw = some c → c.synthetic = true → c.superclass = none) ∧
      ∀ ty m r', ty.isConcrete = true → Registry.ofType ty r = .ok m r' →
        ∃ s last args c, ReflTransGen GivesWay (r, ty) (s, last) ∧
          last.parts? = some (m.raw, args) ∧ s.classes.find? m.raw = some c ∧
          (c.synthetic = true → c.superclass = none) ∧
          ∀ u next, ReflTransGen GivesWay (r, ty) (u, next) →
            Registry.ofType next u = .ok m r' ∧
            (Registry.ofType next r' = .ok m r' ↔
              ¬ (m.key.args ≠ args ∧ (r'.classes.isAssignable .list m.raw = true ∨
                r'.classes.isAssignable .map m.raw = true))) := by
  intro r
  have hv : r.Valid := reached_valid config ops
  refine ⟨fun m hm c hc => hv.not_synthetic hm hc, fun ty m r' hty hm => ?_⟩
  obtain ⟨found, k, hof, hget⟩ := ofType_stages hm
  obtain ⟨hresolved, hfor⟩ : Resolved (depthLimit + 1) ty ∧ modelFor ty r = .ok m found := by
    obtain ⟨concrete, start, hresolve, hfor⟩ := bind_eq_ok_iff.1 hof
    obtain ⟨t, ht, rfl⟩ := onTable_eq_ok hresolve
    obtain ⟨hresolved, rfl, rfl⟩ := resolveAt_of_concrete hty ht
    exact ⟨hresolved, hfor⟩
  -- the registry where the search ended, and what the lookup left behind
  obtain ⟨s, last, args, c, hway, hlast, hc, hdirect, hkey, hsf, hlater⟩ := modelFor_endsAt hv hresolved hfor
  obtain ⟨hvf, -, hmf⟩ := (modelFor_keeps hresolved).of_ok hv hfor
  have hstep := Model.getContents_step hvf hmf
  rw [after_of_ok hget] at hstep
  have hsr : s.classes.Within r'.classes := Within.trans _ _ _ hsf.within hstep.classes
  have hcodecs : r'.codecs = s.codecs := (hstep.calm rfl).codecs.trans hsf.codecs
  have hcid : c.id = m.raw := find?_id hc
  have hiff := keyFor_eq_iff hsr (congrArg (CodecTable.find? · c) hcodecs) m.raw args
  rw [← hkey, hcid, IsCollection] at hiff
  refine ⟨s, last, args, c, hway, hlast, hc, Class.redirect?_eq_none_iff.1 hdirect,
    fun u next hnext => ?_⟩
  obtain ⟨hvu, hresolved', hfor'⟩ := modelFor_of_way hnext hv hresolved hfor
  refine ⟨ofType_of_getContents ((modelOf_of_resolved hresolved' u).trans hfor') hget, ?_⟩
  have hur : u.classes.Within r'.classes :=
    Within.trans _ _ _ ((modelFor_keeps hresolved').of_ok hvu hfor').2.1.within hstep.classes
  -- the search from the next type ends later where the first one would
  have hsame : modelFor next r' = cachedModel last c m.raw args r' := by
    obtain ⟨n, w, hn⟩ := cachedModel_answers last c m.raw args r'
    rw [hn]
    exact modelFor_of_way_later hnext hur ((hlater r' hsr).trans hn)
  rw [← hiff]
  constructor
  · intro hagain
    obtain ⟨w, -, hof', -⟩ := ofType_stages hagain
    rw [modelOf_of_resolved hresolved', hsame] at hof'
    exact (cachedModel_key hof').symm
  · intro hkey'
    have hfound : r'.findModel? (r'.keyFor c m.raw args) = some m := by
      rw [hkey']
      exact hstep.valid.cached m (hstep.there m rfl)
    exact ofType_of_stages (resolveAt_of_resolved hresolved' next r'.classes)
      (hsame.trans (cachedModel_of_found hfound)) (Model.getContents_ok hget)

/-! ## Enhanced boxes -/

def boxClass : Class := { Class.bare ⟨"Box"⟩ .plain with typeParams := [⟨"T", []⟩] }

/-- Generated from the class of boxes, for boxes of arrays. -/
def crateClass : Class :=
  { Class.bare ⟨"Crate"⟩ .plain with
    typeParams := [⟨"E", []⟩]
    synthetic := true
    superclass := some (.apply ⟨"Box"⟩ [.array (.var ⟨"Crate"⟩ "E")]) }

/-- Generated from the class of crates. -/
def crateProxyClass : Class :=
  { Class.bare ⟨"CrateProxy"⟩ .plain with
    typeParams := [⟨"E", []⟩]
    synthetic := true
    superclass := some (.apply ⟨"Crate"⟩ [.var ⟨"CrateProxy"⟩ "E"]) }

def boxRegistry : Registry :=
  (reached {} [.define boxClass, .define crateClass, .define crateProxyClass]).registry

/-- Two generated classes above each other, with an array on the way. -/
theorem synthetic_classes_share_models_box :
    let proxy : TypeExpr := .apply ⟨"CrateProxy"⟩ [.named .string]
    let crate : TypeExpr := .apply ⟨"Crate"⟩ [.named .string]
    let box : TypeExpr := .apply ⟨"Box"⟩ [.named ⟨"String[]"⟩]
    ∃ m r' u, m.raw = ⟨"Box"⟩ ∧ Registry.ofType proxy boxRegistry = .ok m r' ∧
      ReflTransGen GivesWay (boxRegistry, proxy) (boxRegistry, crate) ∧
      ReflTransGen GivesWay (boxRegistry, proxy) (u, box) ∧
      Registry.ofType crate boxRegistry = .ok m r' ∧ Registry.ofType crate r' = .ok m r' ∧
      Registry.ofType box u = .ok m r' ∧ Registry.ofType box r' = .ok m r' := by
  intro proxy crate box
  have hproxy : outcome (do
      let m ← Registry.ofType proxy
      let s ← get
      return decide (m.raw = ⟨"Box"⟩ ∧ s.classes.isAssignable .list ⟨"Box"⟩ = false ∧
        s.classes.isAssignable .map ⟨"Box"⟩ = false)) boxRegistry = .ok true := by decide +kernel
  obtain ⟨m, r', hm, hrest⟩ := bind_eq_ok_iff.1 (eq_ok_of_outcome hproxy)
  obtain ⟨_, _, hget, hpure⟩ := bind_eq_ok_iff.1 hrest
  cases hget
  obtain ⟨hraw, hlist, hmap⟩ := of_decide_eq_true (EStateM.Result.ok.inj hpure).1
  have hfirst : GivesWay (boxRegistry, proxy) (boxRegistry, crate) :=
    ⟨_, _, crateProxyClass, _, rfl, rfl, rfl, rfl, rfl⟩
  have hsecond : GivesWay (boxRegistry, crate)
      (after (onTable (ClassTable.resolve (.apply ⟨"Box"⟩ [.array (.var ⟨"Crate"⟩ "E")]) crate)) boxRegistry,
        box) :=
    ⟨_, _, crateClass, _, rfl, rfl, rfl, rfl, rfl⟩
  obtain ⟨-, hshare⟩ := synthetic_classes_share_models {}
    [.define boxClass, .define crateClass, .define crateProxyClass]
  obtain ⟨-, -, args, -, -, -, -, -, hway⟩ := hshare proxy m r' rfl hm
  have hno : ¬ (m.key.args ≠ args ∧ (r'.classes.isAssignable .list m.raw = true ∨
      r'.classes.isAssignable .map m.raw = true)) := by
    rw [hraw, hlist, hmap]
    simp
  obtain ⟨hcrate, hcrate'⟩ := hway _ _ (.single hfirst)
  obtain ⟨hbox, hbox'⟩ := hway _ _ (.tail (.single hfirst) hsecond)
  exact ⟨m, r', _, hraw, hm, .single hfirst, .tail (.single hfirst) hsecond, hcrate, hcrate'.2 hno,
    hbox, hbox'.2 hno⟩

/-- An array class that is declared to be a list too, below an array class that only its own initialization
makes: its model is found while its supertypes are incomplete, as one of an array and without the type
argument, and asked for again it is a list. -/
theorem synthetic_model_outgrown :
    let shelf : Class :=
      { Class.bare ⟨"Shelf"⟩ (.array (.array (.named .string))) with
        interfaces := [.named ⟨"String[]"⟩, .listOf (.named .string)] }
    let proxy : Class :=
      { Class.bare ⟨"ShelfProxy"⟩ .plain with
        synthetic := true, superclass := some (.apply ⟨"Shelf"⟩ [.named .string]) }
    let r := (reached {} [.define shelf, .define proxy]).registry
    GivesWay (r, .named ⟨"ShelfProxy"⟩) (r, .apply ⟨"Shelf"⟩ [.named .string]) ∧
      ∃ m r₁ n r₂, Registry.ofType (.named ⟨"ShelfProxy"⟩) r = .ok m r₁ ∧
        Registry.ofType (.apply ⟨"Shelf"⟩ [.named .string]) r₁ = .ok n r₂ ∧
        m.kind = .array ∧ n.kind = .list ∧ n ≠ m := by
  intro shelf proxy r
  refine ⟨⟨_, _, proxy, _, rfl, rfl, rfl, rfl, rfl⟩, ?_⟩
  have hboth : outcome (do
      let m ← Registry.ofType (.named ⟨"ShelfProxy"⟩)
      let n ← Registry.ofType (.apply ⟨"Shelf"⟩ [.named .string])
      return decide (m.kind = .array ∧ n.kind = .list)) r = .ok true := by decide +kernel
  obtain ⟨m, r₁, hm, hrest⟩ := bind_eq_ok_iff.1 (eq_ok_of_outcome hboth)
  obtain ⟨n, r₂, hn, hpure⟩ := bind_eq_ok_iff.1 hrest
  obtain ⟨harray, hlist⟩ := of_decide_eq_true (EStateM.Result.ok.inj hpure).1
  refine ⟨m, r₁, n, r₂, hm, hn, harray, hlist, fun hsame => ?_⟩
  rw [hsame, harray] at hlist
  cases hlist

end Introspect
