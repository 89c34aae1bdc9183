import Introspect.Proofs.Classes.Growth
import Introspect.Proofs.Models.Search

/-!
The invariant of the registry, and how a registry grows while models are looked for.

* `Valid`: every cached model is found by its key, stands at its place, and its class and type are those
  of the key; contents belong to cached models and lead to cached models only.
* `Grown`: classes and models were added at most; everything else but the journal is as it was.
* `Keeps`: the computation keeps a registry valid and lets it grow only, and its answer has a property.
* `modelWithin_keeps`: the search of a model answers a cached one.
-/

namespace Introspect

/-- The models that contents lead to. -/
def Contents.models (c : Contents) : List Model := c.properties.map (·.model) ++ c.parameters

namespace Registry

open ClassTable TypeExpr

/-! ## Invariant -/

/-- What a cached model is made of. -/
structure Entry (t : ClassTable) (m : Model) : Prop where
  cls : t.find? m.key.raw = some m.cls
  direct : m.cls.redirect? = none
  parts : m.type.parts? = some (m.key.raw, m.key.args)
  args : m.kind.hasArguments = false → m.type = .named m.key.raw
  resolved : Resolved (depthLimit + 1) m.type

structure Valid (r : Registry) : Prop where
  place : ∀ (i : Nat) (m : Model), r.models[i]? = some m → m.id = i
  cached : ∀ m ∈ r.models, r.findModel? m.key = some m
  entry : ∀ m ∈ r.models, Entry r.classes m
  owned : ∀ (id : Nat) (c : Contents), r.contents.find? id = some c → id < r.models.length
  closed : ∀ (id : Nat) (c : Contents), r.contents.find? id = some c → ∀ m ∈ c.models, m ∈ r.models

/-! ## Growth -/

/-- The model is one that the registry would make. -/
structure MadeIn (r : Registry) (m : Model) : Prop where
  codec : m.codec = r.codecs.find? m.cls
  known : r.classes.contains m.cls.id = true
  kind : m.kind = r.kindOf m.cls m.codec m.key.args

structure Grown (r r' : Registry) : Prop where
  classes : r.classes.Extends r'.classes
  models : r.models <+: r'.models
  made : ∀ m ∈ r'.models, m ∈ r.models ∨
    ∃ s : Registry, r.classes.Extends s.classes ∧ s.classes.Within r'.classes ∧
      s.codecs = r.codecs ∧ MadeIn s m
  contents : r'.contents = r.contents
  codecs : r'.codecs = r.codecs
  config : r'.config = r.config
  order : r'.order = r.order
  live : r'.live = r.live

theorem Grown.within {r r' : Registry} (h : r.Grown r') : r.classes.Within r'.classes :=
  h.classes.within

theorem Grown.refl (r : Registry) : r.Grown r where
  classes := Extends.refl r.classes
  models := List.prefix_refl r.models
  made _ hm := .inl hm
  contents := rfl
  codecs := rfl
  config := rfl
  order := rfl
  live := rfl

theorem Grown.trans {r s t : Registry} (h : r.Grown s) (h' : s.Grown t) : r.Grown t where
  classes := Extends.trans _ _ _ h.classes h'.classes
  models := h.models.trans h'.models
  made m hm := by
    rcases h'.made m hm with hm | ⟨u, hu, hu', hc, hm⟩
    · rcases h.made m hm with hm | ⟨u, hu, hu', hc, hm⟩
      · exact .inl hm
      · exact .inr ⟨u, hu, Within.trans _ _ _ hu' h'.within, hc, hm⟩
    · exact .inr ⟨u, Extends.trans _ _ _ h.classes hu, hu', hc.trans h.codecs, hm⟩
  contents := h'.contents.trans h.contents
  codecs := h'.codecs.trans h.codecs
  config := h'.config.trans h.config
  order := h'.order.trans h.order
  live := h'.live.trans h.live

theorem Grown.logged (r : Registry) (level : LogLevel) (text : String) :
    r.Grown (r.logged level text) where
  classes := Extends.refl r.classes
  models := List.prefix_refl r.models
  made _ hm := .inl hm
  contents := rfl
  codecs := rfl
  config := rfl
  order := rfl
  live := rfl

theorem Grown.table {r : Registry} {t : ClassTable} (h : r.classes.Extends t) :
    r.Grown { r with classes := t } where
  classes := h
  models := List.prefix_refl r.models
  made _ hm := .inl hm
  contents := rfl
  codecs := rfl
  config := rfl
  order := rfl
  live := rfl

theorem Grown.withModel {r : Registry} {m : Model} (h : MadeIn r m) :
    r.Grown (r.withModel m) where
  classes := Extends.refl r.classes
  models := List.prefix_append _ _
  made n hn := by
    rcases List.mem_append.1 hn with hn | hn
    · exact .inl hn
    · cases List.mem_singleton.1 hn
      exact .inr ⟨r, Extends.refl _, Within.refl _, rfl, h⟩
  contents := rfl
  codecs := rfl
  config := rfl
  order := rfl
  live := rfl

/-! ## What preserves the invariant -/

theorem Entry.mono {t u : ClassTable} {m : Model} (h : Entry t m) (htu : t.Within u) : Entry u m :=
  { h with cls := htu _ _ h.cls }

/-- The parts of its type tell the class and the arguments of a model. -/
theorem Entry.of_parts {t : ClassTable} {m : Model} {id : ClassId} {args : List TypeExpr} {c : Class}
    (h : Entry t m) (hparts : m.type.parts? = some (id, args)) (hc : t.find? id = some c) :
    m.cls = c ∧ m.key.args = args := by
  obtain ⟨hraw, hargs⟩ := Prod.mk.inj (Option.some.inj (h.parts.symm.trans hparts))
  have hcls := h.cls
  rw [hraw, hc] at hcls
  exact ⟨(Option.some.inj hcls).symm, hargs⟩

theorem Valid.logged {r : Registry} (h : r.Valid) (level : LogLevel) (text : String) :
    (r.logged level text).Valid :=
  ⟨h.place, h.cached, h.entry, h.owned, h.closed⟩

theorem Valid.table {r : Registry} (h : r.Valid) {t : ClassTable} (ht : r.classes.Within t) :
    Valid { r with classes := t } :=
  ⟨h.place, h.cached, fun m hm => (h.entry m hm).mono ht, h.owned, h.closed⟩

theorem findModel?_key {r : Registry} {key : ModelKey} {m : Model} (h : r.findModel? key = some m) :
    m.key = key := by
  have := List.find?_some h
  simpa using this

theorem mem_of_findModel? {r : Registry} {key : ModelKey} {m : Model}
    (h : r.findModel? key = some m) : m ∈ r.models :=
  List.mem_of_find?_eq_some h

/-- A model that was found is found in every later cache. -/
theorem findModel?_of_prefix {r r' : Registry} (h : r.models <+: r'.models) {key : ModelKey}
    {m : Model} (hm : r.findModel? key = some m) : r'.findModel? key = some m := by
  obtain ⟨rest, hrest⟩ := h
  unfold findModel? at hm ⊢
  rw [← hrest, List.find?_append, hm]
  rfl

theorem Valid.withModel {r : Registry} (h : r.Valid) {m : Model} (hid : m.id = r.models.length)
    (hnew : r.findModel? m.key = none) (hm : Entry r.classes m) : (r.withModel m).Valid where
  place i n hn := by
    have hn : (r.models ++ [m])[i]? = some n := hn
    rcases Nat.lt_trichotomy i r.models.length with hi | hi | hi
    · rw [List.getElem?_append_left hi] at hn
      exact h.place i n hn
    · subst hi
      rw [List.getElem?_concat_length] at hn
      cases hn
      exact hid
    · rw [List.getElem?_eq_none (by simp; omega)] at hn
      cases hn
  cached n hn := by
    rcases List.mem_append.1 hn with hn | hn
    · exact findModel?_of_prefix (List.prefix_append _ _) (h.cached n hn)
    · cases List.mem_singleton.1 hn
      unfold findModel? at hnew ⊢
      show (r.models ++ [m]).find? _ = some m
      rw [List.find?_append, hnew]
      simp
  entry n hn := by
    rcases List.mem_append.1 hn with hn | hn
    · exact h.entry n hn
    · cases List.mem_singleton.1 hn
      exact hm
  owned id c hc := by
    have := h.owned id c hc
    show id < (r.models ++ [m]).length
    rw [List.length_append]
    omega
  closed id c hc n hn := List.mem_append_left _ (h.closed id c hc n hn)

/-! ## Computations that keep the invariant -/

section Keeping

variable {α β : Type} {Q : α → Registry → Prop} {R : β → Registry → Prop} {r : Registry}

/-- Run on any valid registry that `r` has grown into, the computation leaves a valid registry that has
grown, whether it answers or fails; an answer has the property `Q`. -/
def Keeps (r : Registry) (x : RegistryM α) (Q : α → Registry → Prop) : Prop :=
  ∀ s, r.Grown s → s.Valid →
    (after x s).Valid ∧ s.Grown (after x s) ∧ ∀ a s', x s = .ok a s' → Q a s'

theorem Keeps.of_ok {x : RegistryM α} (h : Keeps r x Q) (hv : r.Valid) {r' : Registry} {a : α}
    (hx : x r = .ok a r') : r'.Valid ∧ r.Grown r' ∧ Q a r' := by
  obtain ⟨hv', hg, hq⟩ := h r (Grown.refl r) hv
  rw [after_of_ok hx] at hv' hg
  exact ⟨hv', hg, hq a r' hx⟩

theorem Keeps.later {x : RegistryM α} (h : Keeps r x Q) {s : Registry} (hs : r.Grown s) :
    Keeps s x Q :=
  fun t ht => h t (hs.trans ht)

theorem Keeps.weaken {x : RegistryM α} {Q' : α → Registry → Prop} (h : Keeps r x Q)
    (hq : ∀ a s, r.Grown s → Q a s → Q' a s) : Keeps r x Q' := by
  intro s hs hv
  obtain ⟨hv', hg, ha⟩ := h s hs hv
  refine ⟨hv', hg, fun a s' he => hq a s' ?_ (ha a s' he)⟩
  exact hs.trans (after_of_ok he ▸ hg)

theorem Keeps.pure {a : α} (h : ∀ s, r.Grown s → Q a s) : Keeps r (pure a) Q := by
  intro s hs hv
  refine ⟨hv, Grown.refl s, fun b s' he => ?_⟩
  cases he
  exact h s hs

theorem Keeps.throw (e : Error) : Keeps r (throw e) Q := by
  intro s hs hv
  refine ⟨hv, Grown.refl s, fun b s' he => ?_⟩
  cases he

theorem Keeps.get : Keeps r get fun a s => a = s ∧ r.Grown s := by
  intro s hs hv
  refine ⟨hv, Grown.refl s, fun b s' he => ?_⟩
  cases he
  exact ⟨rfl, hs⟩

theorem Keeps.ofExcept (x : Except Error α) : Keeps r (ofExcept x) fun a _ => x = .ok a := by
  intro s hs hv
  cases x with
  | ok a =>
    refine ⟨hv, Grown.refl s, fun b s' he => ?_⟩
    cases he
    rfl
  | error e =>
    refine ⟨hv, Grown.refl s, fun b s' he => ?_⟩
    cases he

theorem Keeps.bind {x : RegistryM α} {f : α → RegistryM β} (hx : Keeps r x Q)
    (hf : ∀ a s, r.Grown s → Q a s → Keeps s (f a) R) : Keeps r (x >>= f) R := by
  intro s hs hv
  obtain ⟨hv₁, hg₁, hq⟩ := hx s hs hv
  cases he : x s with
  | error e s₁ =>
    rw [after_of_error he] at hv₁ hg₁
    rw [after_of_error (bind_of_error he)]
    refine ⟨hv₁, hg₁, fun b s' hb => ?_⟩
    rw [bind_of_error he] at hb
    cases hb
  | ok a s₁ =>
    rw [after_of_ok he] at hv₁ hg₁
    obtain ⟨hv₂, hg₂, hr⟩ := hf a s₁ (hs.trans hg₁) (hq a s₁ he) s₁ (Grown.refl s₁) hv₁
    rw [after_bind_of_ok he]
    refine ⟨hv₂, hg₁.trans hg₂, fun b s' hb => ?_⟩
    rw [bind_of_ok he] at hb
    exact hr b s' hb

/-- A loop keeps what its steps keep; its answers have the property of the steps' answers. -/
theorem Keeps.mapM {f : α → RegistryM β} {as : List α} (hf : ∀ a ∈ as, Keeps r (f a) R)
    (hR : ∀ b s s', s.Grown s' → R b s → R b s') :
    Keeps r (as.mapM f) fun bs s => ∀ b ∈ bs, R b s := by
  induction as generalizing r with
  | nil => exact Keeps.pure fun s _ b hb => by cases hb
  | cons a as ih =>
    rw [List.mapM_cons]
    refine Keeps.bind (hf a (List.mem_cons_self ..)) fun b s hs hb => ?_
    refine Keeps.bind (ih fun a' ha => (hf a' (List.mem_cons_of_mem _ ha)).later hs)
      fun bs t ht hbs => ?_
    refine Keeps.pure fun u hu c hc => ?_
    rcases List.mem_cons.1 hc with rfl | hc
    · exact hR c s u (ht.trans hu) hb
    · exact hR c t u hu (hbs c hc)

/-- A fold keeps the property that every step hands on. -/
theorem Keeps.foldlM {f : β → α → RegistryM β} {as : List α} {b : β}
    (hf : ∀ b s, ∀ a ∈ as, r.Grown s → R b s → Keeps s (f b a) R)
    (hR : ∀ b s s', s.Grown s' → R b s → R b s') (hb : R b r) : Keeps r (as.foldlM f b) R := by
  induction as generalizing r b with
  | nil => exact Keeps.pure fun s hs => hR b r s hs hb
  | cons a as ih =>
    rw [List.foldlM_cons]
    refine Keeps.bind (hf b r a (List.mem_cons_self ..) (Grown.refl r) hb) fun b' s hs hb' => ?_
    refine ih (fun b'' t a' ha ht hb'' => ?_) hb'
    exact hf b'' t a' (List.mem_cons_of_mem _ ha) (hs.trans ht) hb''

theorem log_keeps (level : LogLevel) (text : String) : Keeps r (log level text) fun _ _ => True := by
  intro s hs hv
  exact ⟨hv.logged level text, Grown.logged s level text, fun _ _ _ => trivial⟩

theorem onTable_keeps {x : TableM α} (hx : Moves Extends x) :
    Keeps r (onTable x) fun a _ => ∃ t t', x t = .ok a t' := by
  intro s hs hv
  have hgrow := hx s.classes
  rw [after_onTable]
  refine ⟨hv.table hgrow.within, Grown.table hgrow, fun a s' he => ?_⟩
  obtain ⟨t, ht, -⟩ := onTable_eq_ok he
  exact ⟨s.classes, t, ht⟩

theorem requireLive_keeps : Keeps r requireLive fun _ _ => True := by
  unfold requireLive
  refine Keeps.bind Keeps.get fun s _ _ _ => ?_
  split
  · exact Keeps.throw _
  · exact Keeps.pure fun _ _ => trivial

/-- Resolution answers a resolved type. -/
theorem resolve_keeps (ty site : TypeExpr) :
    Keeps r (onTable (ClassTable.resolve ty site)) fun answer _ => Resolved (depthLimit + 1) answer :=
  Keeps.weaken (onTable_keeps (resolveAt_extends _ ty site)) fun _ _ _ ⟨_, _, h⟩ => resolveAt_resolved h

end Keeping

/-! ## Search -/

/-- The answer is a model of the cache. -/
def Cached (m : Model) (r : Registry) : Prop := m ∈ r.models

theorem Cached.grown {m : Model} {r s : Registry} (h : Cached m r) (hs : r.Grown s) : Cached m s :=
  hs.models.subset h

theorem newModel_entry {r : Registry} {ty : TypeExpr} {c : Class} {raw : ClassId}
    {args : List TypeExpr} (hp : ty.parts? = some (raw, args))
    (hty : Resolved (depthLimit + 1) ty) (hc : r.classes.find? raw = some c)
    (hd : c.redirect? = none) : Entry r.classes (r.newModel ty c raw args) := by
  refine ⟨hc, hd, ?_, ?_, ?_⟩
  · show (typeOf (r.kindOf c (r.codecs.find? c) args) raw ty).parts? = _
    unfold typeOf
    cases hk : (r.kindOf c (r.codecs.find? c) args).hasArguments with
    | true => simpa [newModel, keyFor, keyOf, hk] using hp
    | false => simp [newModel, keyFor, keyOf, hk, TypeExpr.parts?]
  · intro hk
    show typeOf (r.kindOf c (r.codecs.find? c) args) raw ty = .named raw
    have hk : (r.kindOf c (r.codecs.find? c) args).hasArguments = false := hk
    unfold typeOf
    rw [hk]
    rfl
  · show Resolved (depthLimit + 1) (typeOf (r.kindOf c (r.codecs.find? c) args) raw ty)
    unfold typeOf
    split
    · exact hty
    · exact Resolved.named depthLimit raw

theorem newModel_made {r : Registry} {ty : TypeExpr} {c : Class} {raw : ClassId}
    {args : List TypeExpr} (hc : r.classes.find? raw = some c) :
    MadeIn r (r.newModel ty c raw args) where
  codec := rfl
  known := by
    show r.classes.contains c.id = true
    rw [find?_id hc]
    exact contains_iff.2 ⟨c, hc⟩
  kind := (kindOf_key_args r c (r.codecs.find? c) raw args).symm

theorem cachedModel_keeps {r : Registry} {ty : TypeExpr} {c : Class} {raw : ClassId}
    {args : List TypeExpr} (hp : ty.parts? = some (raw, args))
    (hty : Resolved (depthLimit + 1) ty) (hc : r.classes.find? raw = some c)
    (hd : c.redirect? = none) : Keeps r (cachedModel ty c raw args) Cached := by
  intro s hs hv
  have happly := cachedModel_apply ty c raw args s
  cases hm : s.findModel? (s.keyFor c raw args) with
  | some m =>
    rw [hm] at happly
    rw [after_of_ok happly]
    refine ⟨hv, Grown.refl s, fun a s' he => ?_⟩
    rw [happly] at he
    cases he
    exact mem_of_findModel? hm
  | none =>
    rw [hm] at happly
    rw [after_of_ok happly]
    have hcs : s.classes.find? raw = some c := hs.within raw c hc
    refine ⟨?_, Grown.withModel (newModel_made hcs), fun a s' he => ?_⟩
    · exact hv.withModel rfl hm (newModel_entry hp hty hcs hd)
    · rw [happly] at he
      cases he
      exact List.mem_append_right _ (List.mem_singleton_self _)

theorem modelWithin_keeps (n : Nat) {r : Registry} {ty : TypeExpr}
    (hty : Resolved (depthLimit + 1) ty) : Keeps r (modelWithin n ty) Cached := by
  induction n generalizing r ty with
  | zero => exact Keeps.throw _
  | succ n ih =>
    obtain ⟨raw, args, hp, -⟩ := hty.parts
    unfold modelWithin
    simp only [hp]
    refine Keeps.bind Keeps.get fun s s' hs' hs => ?_
    obtain ⟨rfl, -⟩ := hs
    refine Keeps.bind (Keeps.ofExcept _) fun c t ht hc => ?_
    have hcls : t.classes.find? raw = some c := ht.within raw c (lookup_eq_ok_iff.1 hc)
    have found : c.redirect? = none → Keeps t (cachedModel ty c raw args) Cached :=
      cachedModel_keeps hp hty hcls
    unfold Class.redirect? at found
    cases hsyn : c.synthetic with
    | false => exact found (by rw [hsyn]; rfl)
    | true =>
      cases hsup : c.superclass with
      | none => exact found (by rw [hsyn, hsup]; rfl)
      | some superclass =>
        exact Keeps.bind (resolve_keeps superclass ty) fun resolved u _ hr => ih hr

theorem modelFor_keeps {r : Registry} {ty : TypeExpr} (hty : Resolved (depthLimit + 1) ty) :
    Keeps r (modelFor ty) Cached :=
  modelWithin_keeps redirectionLimit hty

theorem modelOf_keeps {r : Registry} (ty : TypeExpr) : Keeps r (modelOf ty) Cached :=
  Keeps.bind (resolve_keeps ty ty) fun _ _ _ h => modelFor_keeps h

end Registry
end Introspect
