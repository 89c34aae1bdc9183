import Introspect.Proofs.Classes.Agreement
import Introspect.Proofs.Models.Keys

/-!
Two registries that answer the same lookups: one in which a lookup has failed before, and one in which it
has not.

Both work on tables within one larger table. Whatever the registry with the failure answers, the other one
answers as well, and the models they find for a type have the same key. Their caches need not be alike.

* `Leftover`: what a failed lookup leaves behind.
* `Pair`, `Pair.twin`: stages of the two lookups, and the models of a key in both.
* `resolve_follows`, `modelFor_follows`: the fresh registry answers what the other one does.
* `kindOf_agrees`, `isAssignable_agrees`: what is read off the tables.
-/

namespace Introspect.Registry

open ClassTable TypeExpr

variable {u : ClassTable}

/-! ## Bounds -/

/-- The classes of the registry are within the larger table. -/
def Bounded (u : ClassTable) (r : Registry) : Prop := r.classes.Within u

theorem onTable_inward {α : Type} {x : TableM α} (hx : Moves Within x) :
    Inward (Bounded u) (onTable x) := by
  intro r h
  rw [after_onTable] at h
  exact Within.trans _ _ _ (hx r.classes) h

theorem resolve_inward (ty site : TypeExpr) :
    Inward (Bounded u) (onTable (ClassTable.resolve ty site)) :=
  onTable_inward (resolve_grows ty site)

theorem log_inward (level : LogLevel) (text : String) : Inward (Bounded u) (log level text) :=
  fun _ h => h

theorem cachedModel_inward (concrete : TypeExpr) (c : Class) (raw : ClassId)
    (args : List TypeExpr) : Inward (Bounded u) (cachedModel concrete c raw args) := by
  intro r h
  have happly := cachedModel_apply concrete c raw args r
  cases hm : r.findModel? (r.keyFor c raw args) with
  | some m => rw [after_of_ok (by rw [happly, hm])] at h; exact h
  | none => rw [after_of_ok (by rw [happly, hm])] at h; exact h

theorem modelWithin_inward (n : Nat) (ty : TypeExpr) : Inward (Bounded u) (modelWithin n ty) := by
  induction n generalizing ty with
  | zero => exact Inward.throw _
  | succ n ih =>
    unfold modelWithin
    split
    · exact Inward.throw _
    · refine Inward.bind Inward.get fun r => Inward.bind (Inward.ofExcept _) fun c => ?_
      split
      · exact Inward.bind (resolve_inward _ _) ih
      · exact cachedModel_inward _ _ _ _

theorem modelFor_inward (ty : TypeExpr) : Inward (Bounded u) (modelFor ty) :=
  modelWithin_inward _ ty

/-! ## Stages -/

/-- A stage of one lookup. -/
structure Stage (u : ClassTable) (r : Registry) : Prop where
  valid : r.Valid
  anchored : Anchored u r.classes

theorem Stage.later {r r' : Registry} (h : Stage u r) (hg : r.Grown r') (hv : r'.Valid)
    (hu : Bounded u r') : Stage u r' :=
  ⟨hv, h.anchored.extend hg.classes hu⟩

/-- `b` is `a` with what a failed lookup has left behind: models, and whatever classes there are by now. -/
structure Leftover (a b : Registry) : Prop where
  valid : a.Valid
  models : a.models <+: b.models
  left : ∀ m ∈ b.models, m ∈ a.models ∨ m.codec = a.codecs.find? m.cls
  contents : b.contents = a.contents
  codecs : b.codecs = a.codecs
  config : b.config = a.config
  order : b.order = a.order
  live : b.live = a.live

/-- Stages of two lookups, one that began in `a` and one that began in `b`. -/
structure Pair (u : ClassTable) (a b s t : Registry) : Prop where
  fresh : Stage u s
  complete : Complete u s.classes
  freshGrown : a.Grown s
  later : Stage u t
  laterGrown : b.Grown t

/-- Where the two lookups come to after a step. -/
structure Next (u : ClassTable) (a b s t s' t' : Registry) : Prop where
  pair : Pair u a b s' t'
  left : s.Grown s'
  right : t.Grown t'

section Pairs

variable {a b s t : Registry}

theorem Next.refl (h : Pair u a b s t) : Next u a b s t s t :=
  ⟨h, Grown.refl s, Grown.refl t⟩

theorem Next.trans {s' t' s'' t'' : Registry} (h : Next u a b s t s' t')
    (h' : Next u a b s' t' s'' t'') : Next u a b s t s'' t'' :=
  ⟨h'.pair, h.left.trans h'.left, h.right.trans h'.right⟩

theorem Pair.next {s' t' : Registry} (h : Pair u a b s t) (hv : s'.Valid) (hg : s.Grown s')
    (hc : Complete u s'.classes) (hv' : t'.Valid) (hg' : t.Grown t') (hu : Bounded u t') :
    Next u a b s t s' t' :=
  ⟨⟨⟨hv, hc.toAnchored⟩, hc, h.freshGrown.trans hg, h.later.later hg' hv' hu,
    h.laterGrown.trans hg'⟩, hg, hg'⟩

theorem Pair.config (hb : Leftover a b) (h : Pair u a b s t) : s.config = t.config := by
  rw [h.freshGrown.config, h.laterGrown.config, hb.config]

theorem Pair.order (hb : Leftover a b) (h : Pair u a b s t) : s.order = t.order := by
  rw [h.freshGrown.order, h.laterGrown.order, hb.order]

theorem Pair.live (hb : Leftover a b) (h : Pair u a b s t) : s.live = t.live := by
  rw [h.freshGrown.live, h.laterGrown.live, hb.live]

/-- A model of a cache was there from the start, or has the codec of its class. -/
theorem Grown.codec {r r' : Registry} (h : r.Grown r') {m : Model} (hm : m ∈ r'.models) :
    m ∈ r.models ∨ m.codec = r.codecs.find? m.cls := by
  rcases h.made m hm with hm | ⟨x, -, -, hcodecs, hmade⟩
  · exact .inl hm
  · exact .inr (by rw [hmade.codec, hcodecs])

/-- A model that was there before both lookups is the only one of its key. -/
theorem eq_of_key {r r' : Registry} (hv : r.Valid) (hv' : r'.Valid)
    (hp : r.models <+: r'.models) {m n : Model} (hm : m ∈ r.models) (hn : n ∈ r'.models)
    (hkey : m.key = n.key) : m = n := by
  have hfound := findModel?_of_prefix hp (hv.cached m hm)
  rw [hkey, hv'.cached n hn] at hfound
  exact (Option.some.inj hfound).symm

/-- Models of one key are of the same class and have the same codec, in both caches; they are the same
when they were there before. -/
theorem Pair.twin (hb : Leftover a b) (h : Pair u a b s t) {m n : Model} (hm : m ∈ s.models)
    (hn : n ∈ t.models) (hkey : m.key = n.key) : m.cls = n.cls ∧ m.codec = n.codec := by
  have hcls : m.cls = n.cls := by
    have hc := h.complete.within _ _ (h.fresh.valid.entry m hm).cls
    have hd := h.later.anchored.within _ _ (h.later.valid.entry n hn).cls
    rw [hkey, hd] at hc
    exact (Option.some.inj hc).symm
  refine ⟨hcls, ?_⟩
  have hleft : m ∈ a.models ∨ m.codec = a.codecs.find? m.cls := h.freshGrown.codec hm
  have hright : n ∈ a.models ∨ n.codec = a.codecs.find? n.cls := by
    rcases h.laterGrown.codec hn with hn | hn
    · exact hb.left n hn
    · exact .inr (by rw [hn, hb.codecs])
  rcases hleft with hm' | hm'
  · rw [eq_of_key hb.valid h.later.valid (hb.models.trans h.laterGrown.models) hm' hn hkey]
  · rcases hright with hn' | hn'
    · rw [eq_of_key hb.valid h.fresh.valid h.freshGrown.models hn' hm hkey.symm]
    · rw [hm', hn', hcls]

/-- Grounded in both registries. -/
structure Both (u : ClassTable) (s t : Registry) (ty : TypeExpr) : Prop where
  fresh : Grounded u s.classes ty
  later : Grounded u t.classes ty

theorem Both.next {s' t' : Registry} {ty : TypeExpr} (h : Both u s t ty)
    (hn : Next u a b s t s' t') : Both u s' t' ty :=
  ⟨h.fresh.mono hn.left.within, h.later.mono hn.right.within⟩

/-- The scopes of two scans: grounded, and of the same class and arguments. -/
structure Scope (u : ClassTable) (s t : Registry) (site site' : TypeExpr) : Prop where
  parts : site.parts? = site'.parts?
  fresh : Grounded u s.classes site
  later : Grounded u t.classes site'

theorem Scope.next {s' t' : Registry} {site site' : TypeExpr} (h : Scope u s t site site')
    (hn : Next u a b s t s' t') : Scope u s' t' site site' :=
  ⟨h.parts, h.fresh.mono hn.left.within, h.later.mono hn.right.within⟩

/-- What the classes that both registries know declare is grounded in both. -/
theorem Pair.mentions (h : Pair u a b s t) {c : Class} (hs : s.classes.find? c.id = some c)
    (ht : t.classes.find? c.id = some c) {ty : TypeExpr} (hty : ty ∈ c.mentions) : Both u s t ty :=
  ⟨h.complete.mentions c.id c hs ty hty, h.later.anchored.mentions c.id c ht ty hty⟩

/-- Both registries know the classes. -/
def Known (s t : Registry) (cs : List Class) : Prop :=
  ∀ c ∈ cs, s.classes.find? c.id = some c ∧ t.classes.find? c.id = some c

theorem Known.next {cs : List Class} {s' t' : Registry} (h : Known s t cs)
    (hn : Next u a b s t s' t') : Known s' t' cs :=
  fun c hc => ⟨hn.left.within _ _ (h c hc).1, hn.right.within _ _ (h c hc).2⟩

end Pairs

/-! ## What is read off the tables -/

theorem isAssignable_agrees {t t' : ClassTable} (ht : Anchored u t) (ht' : Anchored u t')
    {source : ClassId} (hs : Grounded u t (.named source)) (hs' : Grounded u t' (.named source))
    (target : ClassId) : t.isAssignable target source = t'.isAssignable target source := by
  rw [← ht.isAssignable hs, ← ht'.isAssignable hs']

theorem kindOf_agrees {x y : Registry} (hx : Anchored u x.classes) (hy : Anchored u y.classes)
    {c : Class} (hcx : x.classes.contains c.id = true) (hcy : y.classes.contains c.id = true)
    (codec : Option Codec) (args : List TypeExpr) :
    x.kindOf c codec args = y.kindOf c codec args := by
  unfold kindOf
  rw [← hx.isAssignable (grounded_of_contains hcx), ← hx.isAssignable (grounded_of_contains hcx),
    ← hy.isAssignable (grounded_of_contains hcy), ← hy.isAssignable (grounded_of_contains hcy)]

theorem contains_of_lookup {t : ClassTable} {id : ClassId} {c : Class} (h : t.lookup id = .ok c) :
    t.contains c.id = true := by
  have hf := lookup_eq_ok_iff.1 h
  rw [find?_id hf]
  exact contains_iff.2 ⟨c, hf⟩

/-! ## Grounded answers -/

theorem resolve_grounded {ty site answer : TypeExpr} {r r' : Registry} (h : Stage u r)
    (hty : Grounded u r.classes ty) (hsite : Grounded u r.classes site)
    (hr : onTable (ClassTable.resolve ty site) r = .ok answer r') (hu : Bounded u r') :
    Grounded u r'.classes answer := by
  obtain ⟨t, ht, rfl⟩ := onTable_eq_ok hr
  exact resolveAt_grounded h.anchored hty hsite ht hu

/-- The arguments of a model that is found for a grounded type are grounded. -/
theorem modelWithin_grounded {n : Nat} {ty : TypeExpr} {r r' : Registry} {m : Model}
    (h : Stage u r) (hty : Resolved (depthLimit + 1) ty) (hg : Grounded u r.classes ty)
    (hm : modelWithin n ty r = .ok m r') (hu : Bounded u r') :
    ∀ arg ∈ m.key.args, Grounded u r'.classes arg := by
  induction n generalizing ty r with
  | zero => cases hm
  | succ n ih =>
    obtain ⟨raw, args, c, hp, hc, hgo⟩ := modelWithin_succ_eq_ok hm
    rcases hgo with ⟨superclass, hs, hgo⟩ | ⟨hd, hgo⟩
    · obtain ⟨answer, r₁, ha, hgo⟩ := bind_eq_ok_iff.1 hgo
      obtain ⟨hv, hg₁, hra⟩ := (resolve_keeps superclass ty).of_ok h.valid ha
      have hu₁ : Bounded u r₁ := (modelWithin_inward n answer).ok hgo hu
      have hgs := h.anchored.mentions raw c (lookup_eq_ok_iff.1 hc) superclass
        (Class.mentions_supertype (Class.redirect?_supertype hs))
      exact ih (h.later hg₁ hv hu₁) hra (resolve_grounded h hgs hg ha hu₁) hgo
    · have hgrown := ((modelWithin_keeps (n + 1) hty).of_ok h.valid hm).2.1
      intro arg harg
      rw [cachedModel_key hgo] at harg
      unfold keyFor keyOf at harg
      simp only at harg
      split at harg
      · exact (grounded_args hg hp arg harg).mono hgrown.within
      · cases harg

theorem type_grounded {r : Registry} {m : Model} (he : Entry r.classes m)
    (hargs : ∀ arg ∈ m.key.args, Grounded u r.classes arg) : Grounded u r.classes m.type := by
  have hraw : r.classes.contains m.key.raw = true := contains_iff.2 ⟨m.cls, he.cls⟩
  have hparts := he.parts
  intro id hid hcu
  cases ht : m.type with
  | named i =>
    rw [ht] at hparts hid
    cases List.mem_singleton.1 hid
    rw [(Prod.mk.inj (Option.some.inj hparts)).1]
    exact hraw
  | apply raw args =>
    rw [ht] at hparts hid
    obtain ⟨hr, ha⟩ := Prod.mk.inj (Option.some.inj hparts)
    simp only [ids, List.mem_cons] at hid
    rcases hid with rfl | hid
    · rw [hr]
      exact hraw
    · obtain ⟨arg, harg, hid⟩ := mem_idsOfAll.1 hid
      exact hargs arg (ha ▸ harg) id hid hcu
  | wildcard lower upper => rw [ht] at hparts; cases hparts
  | var owner name => rw [ht] at hparts; cases hparts
  | array component => rw [ht] at hparts; cases hparts

/-! ## The fresh registry follows -/

section Following

variable {a b s t : Registry}

theorem log_follows (h : Pair u a b s t) (level level' : LogLevel) (text text' : String) :
    Follows (Bounded u) s t (log level text) (log level' text') fun _ _ s' t' =>
      Next u a b s t s' t' := by
  intro _ t' ht hu _
  cases ht
  exact ⟨(), _, rfl, h.next (h.fresh.valid.logged _ _) (Grown.logged s _ _) h.complete
    (h.later.valid.logged _ _) (Grown.logged t _ _) hu⟩

/-- The same type, resolved and grounded. -/
structure SameType (u : ClassTable) (a b s t : Registry) (ty ty' : TypeExpr) (s' t' : Registry) :
    Prop where
  eq : ty = ty'
  next : Next u a b s t s' t'
  resolved : Resolved (depthLimit + 1) ty
  grounded : Grounded u s'.classes ty

theorem SameType.object (h : Pair u a b s t) : SameType u a b s t .object .object s t :=
  ⟨rfl, Next.refl h, Resolved.named depthLimit .object, h.complete.grounded_object⟩

theorem resolve_follows {ty site site' : TypeExpr} (h : Pair u a b s t)
    (hsame : site.parts? = site'.parts?) (hty : Grounded u s.classes ty)
    (hsite : Grounded u s.classes site) :
    Follows (Bounded u) s t (onTable (ClassTable.resolve ty site))
      (onTable (ClassTable.resolve ty site')) (SameType u a b s t) := by
  intro q t' hq ht' hs'
  obtain ⟨c, hc, rfl⟩ := onTable_eq_ok hq
  rw [after_onTable] at hs'
  obtain ⟨p, d, hp, rfl, hset⟩ := resolveAt_follows h.complete h.later.anchored.within hsame hty
    hsite q c hc ht' hs'
  have hx : onTable (ClassTable.resolve ty site) s = .ok p { s with classes := d } := by
    rw [onTable_apply]
    unfold ClassTable.resolve
    rw [hp]
  obtain ⟨hv, hg, hres⟩ := (resolve_keeps ty site).of_ok h.fresh.valid hx
  obtain ⟨hv', hg', -⟩ := (resolve_keeps ty site').of_ok h.later.valid hq
  exact ⟨p, _, hx, rfl, h.next hv hg hset.complete hv' hg' ht', hres, hset.grounded⟩

/-- Both models have the same key, and both are cached. -/
structure Twins (u : ClassTable) (a b s t : Registry) (m n : Model) (s' t' : Registry) : Prop where
  key : m.key = n.key
  left : Cached m s'
  right : Cached n t'
  next : Next u a b s t s' t'

theorem cachedModel_follows {ty : TypeExpr} {c : Class} {raw : ClassId} {args : List TypeExpr}
    (hb : Leftover a b) (h : Pair u a b s t) (hty : Resolved (depthLimit + 1) ty)
    (hp : ty.parts? = some (raw, args)) (hd : c.redirect? = none)
    (hcs : s.classes.lookup raw = .ok c) (hct : t.classes.lookup raw = .ok c) :
    Follows (Bounded u) s t (cachedModel ty c raw args) (cachedModel ty c raw args)
      (Twins u a b s t) := by
  intro n t' hn ht' _
  obtain ⟨m, s', hm⟩ := cachedModel_answers ty c raw args s
  obtain ⟨hv, hg, hin⟩ :=
    (cachedModel_keeps hp hty (lookup_eq_ok_iff.1 hcs) hd).of_ok h.fresh.valid hm
  obtain ⟨hv', hg', hin'⟩ :=
    (cachedModel_keeps hp hty (lookup_eq_ok_iff.1 hct) hd).of_ok h.later.valid hn
  have hsame : s'.classes = s.classes := cachedModel_classes hm
  refine ⟨m, s', hm, ?_, hin, hin', h.next hv hg (hsame ▸ h.complete) hv' hg' ht'⟩
  rw [cachedModel_key hm, cachedModel_key hn]
  unfold keyFor
  rw [h.freshGrown.codecs, h.laterGrown.codecs, hb.codecs,
    kindOf_agrees h.fresh.anchored h.later.anchored (contains_of_lookup hcs)
      (contains_of_lookup hct)]

theorem modelWithin_follows {n : Nat} {ty : TypeExpr} (hb : Leftover a b) (h : Pair u a b s t)
    (hty : Resolved (depthLimit + 1) ty) (hg : Grounded u s.classes ty) :
    Follows (Bounded u) s t (modelWithin n ty) (modelWithin n ty) (Twins u a b s t) := by
  induction n generalizing ty s t with
  | zero => intro m t' hm; cases hm
  | succ n ih =>
    intro m t' hm ht' hs'
    obtain ⟨raw, args, c, hp, hc, hgo⟩ := modelWithin_succ_eq_ok hm
    have hcs : s.classes.lookup raw = .ok c :=
      h.complete.lookup h.later.anchored.within (hg.raw (raw?_of_parts? hp)) hc
    have happly := modelWithin_apply n ty s
    simp only [hp, hcs] at happly
    rcases hgo with ⟨superclass, hs, hgo⟩ | ⟨hd, hgo⟩
    · have hgs : Grounded u s.classes superclass :=
        h.complete.mentions raw c (lookup_eq_ok_iff.1 hcs) superclass
          (Class.mentions_supertype (Class.redirect?_supertype hs))
      have step : Follows (Bounded u) s t (redirected n superclass ty) (redirected n superclass ty)
          (Twins u a b s t) := by
        refine Follows.bind (resolve_follows h rfl hgs hg) (fun p q s₁ t₁ _ _ _ _ hpq => ?_)
          (modelWithin_inward n) (modelWithin_inward n)
        obtain ⟨rfl, hnext, hres, hgp⟩ := hpq
        exact (ih hnext.pair hres hgp).mono fun _ _ _ _ h' =>
          ⟨h'.key, h'.left, h'.right, hnext.trans h'.next⟩
      simp only [hs] at happly
      exact (step.congr happly rfl) m t' hgo ht' hs'
    · simp only [hd] at happly
      exact ((cachedModel_follows hb h hty hp hd hcs hc).congr happly rfl) m t' hgo ht' hs'

theorem modelFor_follows {ty : TypeExpr} (hb : Leftover a b) (h : Pair u a b s t)
    (hty : Resolved (depthLimit + 1) ty) (hg : Grounded u s.classes ty) :
    Follows (Bounded u) s t (modelFor ty) (modelFor ty) (Twins u a b s t) :=
  modelWithin_follows hb h hty hg

theorem Twins.isAtomic {m n : Model} {s' t' : Registry} (hb : Leftover a b)
    (h : Twins u a b s t m n s' t') : m.isAtomic = n.isAtomic := by
  obtain ⟨hcls, hcodec⟩ := h.next.pair.twin hb h.left h.right h.key
  unfold Model.isAtomic
  rw [hcls, hcodec]

end Following

end Introspect.Registry
