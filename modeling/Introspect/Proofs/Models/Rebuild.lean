import Introspect.Proofs.Models.Likeness

/-!
The contents of a model in the two registries. When both know the model as one of the same kind, and the
later registry builds its contents, then so does the fresh one, and the contents match.

* `assemble_follows`: the properties and parameters, kind by kind.
* `getContents_follows`: the same for contents that may be there already.
-/

namespace Introspect

open Registry ClassTable TypeExpr

variable {u : ClassTable} {a b s t : Registry}

/-! ## Matching contents -/

/-- Contents with the same properties, up to outlines, and with parameters of the same keys; all models
they lead to are cached. -/
structure Matched (u : ClassTable) (a b s t : Registry) (c d : Contents) (s' t' : Registry) : Prop where
  outlines : c.properties.map Property.outline = d.properties.map Property.outline
  keys : c.parameters.map (·.key) = d.parameters.map (·.key)
  left : Model.Leads c s'
  right : Model.Leads d t'
  next : Next u a b s t s' t'

theorem Matched.after {c d : Contents} {s' t' s'' t'' : Registry}
    (h : Matched u a b s' t' c d s'' t'') (hn : Next u a b s t s' t') : Matched u a b s t c d s'' t'' :=
  ⟨h.outlines, h.keys, h.left, h.right, hn.trans h.next⟩

theorem Matched.later {c d : Contents} {s' t' s'' t'' : Registry} (h : Matched u a b s t c d s' t')
    (hn : Next u a b s' t' s'' t'') : Matched u a b s t c d s'' t'' :=
  ⟨h.outlines, h.keys, h.left.grown hn.left, h.right.grown hn.right, h.next.trans hn⟩

/-- Models of a list of parameters. -/
structure Listed (u : ClassTable) (a b s t : Registry) (ms ns : List Model) (s' t' : Registry) :
    Prop where
  keys : ms.map (·.key) = ns.map (·.key)
  left : ∀ m ∈ ms, Cached m s'
  right : ∀ n ∈ ns, Cached n t'
  next : Next u a b s t s' t'

theorem Listed.matched {ms ns : List Model} {s' t' : Registry}
    (h : Listed u a b s t ms ns s' t') : Matched u a b s t ⟨[], ms⟩ ⟨[], ns⟩ s' t' :=
  ⟨rfl, h.keys, Model.leads_iff.2 ⟨fun p hp => (by cases hp), h.left⟩,
    Model.leads_iff.2 ⟨fun p hp => (by cases hp), h.right⟩, h.next⟩

theorem Listed.later {ms ns : List Model} {s' t' s'' t'' : Registry}
    (h : Listed u a b s t ms ns s' t') (hn : Next u a b s' t' s'' t'') :
    Listed u a b s t ms ns s'' t'' :=
  ⟨h.keys, fun m hm => (h.left m hm).grown hn.left, fun n hm => (h.right n hm).grown hn.right,
    h.next.trans hn⟩

theorem Alike.matched {ps qs : List Property} {ms ns : List Model} {s' t' : Registry}
    (h : Alike u a b s t ps qs s' t') (hl : Listed u a b s t ms ns s' t') :
    Matched u a b s t ⟨ps, ms⟩ ⟨qs, ns⟩ s' t' :=
  ⟨h.outlines, hl.keys, Model.leads_iff.2 ⟨h.left, hl.left⟩,
    Model.leads_iff.2 ⟨h.right, hl.right⟩, h.next⟩

theorem Listed.nil (h : Next u a b s t s' t') : Listed u a b s t [] [] s' t' :=
  ⟨rfl, fun m hm => (by cases hm), fun n hn => (by cases hn), h⟩

theorem Listed.append {ms ns : List Model} {m n : Model} {s' t' s'' t'' : Registry}
    (h : Listed u a b s t ms ns s' t') (hmn : Twins u a b s' t' m n s'' t'') :
    Listed u a b s t (ms ++ [m]) (ns ++ [n]) s'' t'' where
  keys := by simp [h.keys, hmn.key]
  left k hk := by
    rcases List.mem_append.1 hk with hk | hk
    · exact (h.left k hk).grown hmn.next.left
    · cases List.mem_singleton.1 hk
      exact hmn.left
  right k hk := by
    rcases List.mem_append.1 hk with hk | hk
    · exact (h.right k hk).grown hmn.next.right
    · cases List.mem_singleton.1 hk
      exact hmn.right
  next := h.next.trans hmn.next

/-! ## Building -/

namespace Model

variable {m n : Model}

theorem argument_inward (target : ClassId) (index : Nat) :
    Inward (Bounded u) (m.argument target index) := by
  unfold argument
  refine Inward.bind Inward.get fun r => Inward.bind (Inward.ofExcept _) fun args => ?_
  split
  · exact resolve_inward _ _
  · exact Inward.pure _

theorem assemble_inward : Inward (Bounded u) m.assemble := by
  unfold assemble
  split
  · exact Inward.pure _
  · exact Inward.bind (scan_inward _ _) fun _ => Inward.pure _
  · refine Inward.bind (Inward.mapM modelFor_inward _) fun ms => ?_
    exact Inward.bind (scan_inward _ _) fun _ => Inward.pure _
  · refine Inward.bind (argument_inward _ _) fun item => ?_
    exact Inward.bind (modelFor_inward item) fun _ => Inward.pure _
  · refine Inward.bind (argument_inward _ _) fun key => Inward.bind (argument_inward _ _) fun v => ?_
    refine Inward.bind (modelFor_inward key) fun _ => ?_
    exact Inward.bind (modelFor_inward v) fun _ => Inward.pure _
  · unfold component
    split
    · refine Inward.bind (resolve_inward _ _) fun ty => ?_
      exact Inward.bind (modelFor_inward ty) fun _ => Inward.pure _
    · refine Inward.bind (Inward.pure _) fun ty => ?_
      exact Inward.bind (modelFor_inward ty) fun _ => Inward.pure _

/-- Two cached models of one key, with grounded types. -/
structure Paired (u : ClassTable) (a b s t : Registry) (m n : Model) : Prop where
  twins : Twins u a b s t m n s t
  args : ∀ arg ∈ m.key.args, Grounded u s.classes arg
  args' : ∀ arg ∈ n.key.args, Grounded u t.classes arg

theorem Paired.entries (h : Paired u a b s t m n) : Entry s.classes m ∧ Entry t.classes n :=
  ⟨h.twins.next.pair.fresh.valid.entry m h.twins.left,
    h.twins.next.pair.later.valid.entry n h.twins.right⟩

theorem Paired.scope (h : Paired u a b s t m n) : Scope u s t m.type n.type where
  parts := by rw [h.entries.1.parts, h.entries.2.parts, h.twins.key]
  fresh := type_grounded h.entries.1 h.args
  later := type_grounded h.entries.2 h.args'

theorem Paired.cls (hb : Leftover a b) (h : Paired u a b s t m n) : m.cls = n.cls :=
  (h.twins.next.pair.twin hb h.twins.left h.twins.right h.twins.key).1

theorem Paired.owner (hb : Leftover a b) (h : Paired u a b s t m n) :
    s.classes.find? m.cls.id = some m.cls ∧ t.classes.find? m.cls.id = some m.cls := by
  have hs := h.entries.1.cls
  have ht := h.entries.2.cls
  rw [← h.cls hb] at ht
  constructor
  · rw [find?_id hs]
    exact hs
  · rw [find?_id ht]
    exact ht

theorem typeArguments_of_parts {raw : ClassId} {args : List TypeExpr}
    (h : m.type.parts? = some (raw, args)) : m.typeArguments = args := by
  unfold typeArguments
  split
  · next r as heq => rw [heq] at h; exact (Prod.mk.inj (Option.some.inj h)).2
  · next hne =>
    cases ht : m.type with
    | named id => rw [ht] at h; exact (Prod.mk.inj (Option.some.inj h)).2
    | apply r as => exact absurd ht (hne r as)
    | wildcard lower upper => rw [ht] at h; cases h
    | var owner name => rw [ht] at h; cases h
    | array component => rw [ht] at h; cases h

theorem argument_follows (h : Pair u a b s t) (hs : Scope u s t m.type n.type) {target : ClassId}
    {index : Nat} :
    Follows (Bounded u) s t (m.argument target index) (n.argument target index)
      (SameType u a b s t) := by
  unfold argument
  refine Follows.get (Follows.ofExcept fun args hargs => ?_)
  rw [← collectParameters_congr hs.parts] at hargs
  have hargs' := h.complete.collectParameters hs.fresh
    (h.later.anchored.within.collectParameters hargs)
  refine ⟨args, hargs', ?_⟩
  have hgrounded := searchParameters_grounded h.fresh.anchored hs.fresh hargs'
  cases ha : args[index]? with
  | none => exact Follows.pure (SameType.object h)
  | some arg =>
    exact resolve_follows h hs.parts (hgrounded arg (List.mem_of_getElem? ha)) hs.fresh

theorem component_follows (hb : Leftover a b) (h : Paired u a b s t m n) :
    Follows (Bounded u) s t m.component n.component (SameType u a b s t) := by
  have hpair := h.twins.next.pair
  unfold component
  rw [← h.cls hb]
  cases hk : m.cls.kind with
  | array component =>
    have hc : m.cls.component? = some component := by
      unfold Class.component?
      rw [hk]
    exact resolve_follows hpair h.scope.parts
      (hpair.complete.components _ _ component h.entries.1.cls hc) h.scope.fresh
  | _ => exact Follows.pure (SameType.object hpair)

/-- One more parameter model. -/
theorem modelFor_listed (hb : Leftover a b) {ms ns : List Model} {s' t' : Registry} {ty : TypeExpr}
    (h : Listed u a b s t ms ns s' t') (hres : Resolved (depthLimit + 1) ty)
    (hg : Grounded u s'.classes ty) :
    Follows (Bounded u) s' t' (modelFor ty) (modelFor ty) fun k l s'' t'' =>
      Listed u a b s t (ms ++ [k]) (ns ++ [l]) s'' t'' :=
  (modelFor_follows hb h.next.pair hres hg).mono fun _ _ _ _ => h.append

/-- The parameter of a sequence: the model of the type that is found first. -/
theorem item_follows (hb : Leftover a b) {x y : RegistryM TypeExpr}
    (hxy : Follows (Bounded u) s t x y (SameType u a b s t)) :
    Follows (Bounded u) s t (do return (⟨[], [← modelFor (← x)]⟩ : Contents))
      (do return (⟨[], [← modelFor (← y)]⟩ : Contents)) (Matched u a b s t) := by
  refine Follows.bind hxy ?next ?left ?right
  case left | right => exact fun ty => Inward.bind (modelFor_inward ty) fun _ => Inward.pure _
  case next =>
    rintro ty _ s₁ t₁ - - - - ⟨rfl, hn, hres, hg⟩
    refine Follows.bind (modelFor_listed hb (Listed.nil hn) hres hg)
      (fun k l s₂ t₂ _ _ _ _ hlist => ?_) (fun _ => Inward.pure _) fun _ => Inward.pure _
    exact Follows.pure hlist.matched

theorem map_follows (hb : Leftover a b) (h : Pair u a b s t) (hs : Scope u s t m.type n.type) :
    Follows (Bounded u) s t
      (do
        let key ← m.argument .map 0
        let value ← m.argument .map 1
        return (⟨[], [← modelFor key, ← modelFor value]⟩ : Contents))
      (do
        let key ← n.argument .map 0
        let value ← n.argument .map 1
        return (⟨[], [← modelFor key, ← modelFor value]⟩ : Contents))
      (Matched u a b s t) := by
  refine Follows.bind (argument_follows h hs) ?next ?left ?right
  case left | right =>
    refine fun key => Inward.bind (argument_inward _ _) fun v => ?_
    refine Inward.bind (modelFor_inward key) fun _ => ?_
    exact Inward.bind (modelFor_inward v) fun _ => Inward.pure _
  case next =>
    rintro key _ s₁ t₁ - - - - ⟨rfl, hn₁, hres, hg⟩
    refine Follows.bind (argument_follows hn₁.pair (hs.next hn₁)) ?next ?left ?right
    case left | right =>
      refine fun v => Inward.bind (modelFor_inward key) fun _ => ?_
      exact Inward.bind (modelFor_inward v) fun _ => Inward.pure _
    case next =>
      rintro value _ s₂ t₂ - - - - ⟨rfl, hn₂, hres', hg'⟩
      have hlist := Listed.nil (hn₁.trans hn₂)
      refine Follows.bind (modelFor_listed hb hlist hres (hg.mono hn₂.left.within)) ?next ?left ?right
      case left | right => exact fun _ => Inward.bind (modelFor_inward value) fun _ => Inward.pure _
      case next =>
        intro k l s₃ t₃ hk _ _ _ hlist'
        have hgrown := (modelFor_keeps hres).of_ok hn₂.pair.fresh.valid hk
        refine Follows.bind (modelFor_listed hb hlist' hres' (hg'.mono hgrown.2.1.within))
          (fun k' l' s₄ t₄ _ _ _ _ hlist'' => ?_) (fun _ => Inward.pure _) fun _ => Inward.pure _
        exact Follows.pure hlist''.matched

theorem assemble_follows (hb : Leftover a b) (h : Paired u a b s t m n) (hkind : m.kind = n.kind) :
    Follows (Bounded u) s t m.assemble n.assemble (Matched u a b s t) := by
  have hpair := h.twins.next.pair
  have howner := h.owner hb
  have hscan : ∀ {s' t' : Registry}, Next u a b s t s' t' →
      Follows (Bounded u) s' t' (scan m.cls m.type) (scan n.cls n.type) (Alike u a b s' t') := by
    intro s' t' hn
    rw [← h.cls hb]
    exact scan_follows hb hn.pair (h.scope.next hn)
      ⟨hn.left.within _ _ howner.1, hn.right.within _ _ howner.2⟩
  unfold assemble
  rw [← hkind]
  cases m.kind with
  | scalar => exact Follows.pure (Listed.nil h.twins.next).matched
  | object =>
    refine Follows.bind (hscan (Next.refl hpair)) (fun ps qs s' t' _ _ _ _ hps => ?_)
      (fun _ => Inward.pure _) fun _ => Inward.pure _
    exact Follows.pure (hps.matched (Listed.nil hps.next))
  | generic =>
    have hargs : n.typeArguments = m.typeArguments := by
      rw [typeArguments_of_parts h.entries.1.parts, typeArguments_of_parts h.entries.2.parts,
        h.twins.key]
    have hin : ∀ ty ∈ m.typeArguments, Grounded u s.classes ty := by
      rw [typeArguments_of_parts h.entries.1.parts]
      exact h.args
    have loop : Follows (Bounded u) s t (m.typeArguments.mapM modelFor)
        (m.typeArguments.mapM modelFor) (Listed u a b s t) := by
      refine Follows.mapM (fun ty hty ms ns s' t' hlist => ?_) modelFor_inward modelFor_inward
        (Listed.nil (Next.refl hpair))
      exact modelFor_listed hb hlist (typeArguments_resolved h.entries.1.resolved ty hty)
        ((hin ty hty).mono hlist.next.left.within)
    simp only [hargs]
    refine Follows.bind loop (fun ms ns s' t' _ _ _ _ hlist => ?_)
      (fun _ => Inward.bind (scan_inward _ _) fun _ => Inward.pure _)
      fun _ => Inward.bind (scan_inward _ _) fun _ => Inward.pure _
    refine Follows.bind (hscan hlist.next) (fun ps qs s'' t'' _ _ _ _ hps => ?_)
      (fun _ => Inward.pure _) fun _ => Inward.pure _
    exact Follows.pure ((hps.after hlist.next).matched (hlist.later hps.next))
  | list => exact item_follows hb (argument_follows hpair h.scope)
  | map => exact map_follows hb hpair h.scope
  | array => exact item_follows hb (component_follows hb h)

theorem requireLive_follows (hb : Leftover a b) (h : Pair u a b s t) :
    Follows (Bounded u) s t requireLive requireLive fun _ _ s' t' => Next u a b s t s' t' := by
  unfold requireLive
  refine Follows.get ?_
  rw [h.live hb]
  exact Follows.ite Follows.throw (Follows.pure (Next.refl h))

theorem Paired.next {s' t' : Registry} (h : Paired u a b s t m n) (hn : Next u a b s t s' t') :
    Paired u a b s' t' m n where
  twins := ⟨h.twins.key, h.twins.left.grown hn.left, h.twins.right.grown hn.right, Next.refl hn.pair⟩
  args arg harg := (h.args arg harg).mono hn.left.within
  args' arg harg := (h.args' arg harg).mono hn.right.within

theorem build_inward : Inward (Bounded u) m.build := by
  unfold build requireLive
  refine Inward.bind (Inward.bind Inward.get fun _ => Inward.ite (Inward.throw _) (Inward.pure _))
    fun _ => Inward.bind assemble_inward fun c => Inward.bind Inward.get fun r => ?_
  exact Inward.ite (Inward.bind (log_inward _ _) fun _ => Inward.pure _) (Inward.pure _)

theorem build_follows (hb : Leftover a b) (h : Paired u a b s t m n) (hkind : m.kind = n.kind) :
    Follows (Bounded u) s t m.build n.build (Matched u a b s t) := by
  unfold build
  refine Follows.bind (requireLive_follows hb h.twins.next.pair) ?next ?left ?right
  case left | right =>
    refine fun _ => Inward.bind assemble_inward fun c => Inward.bind Inward.get fun r => ?_
    exact Inward.ite (Inward.bind (log_inward _ _) fun _ => Inward.pure _) (Inward.pure _)
  case next =>
    intro _ _ s₁ t₁ _ _ _ _ hn
    refine Follows.bind (assemble_follows hb (h.next hn) hkind) ?next ?left ?right
    case left | right =>
      refine fun c => Inward.bind Inward.get fun r => ?_
      exact Inward.ite (Inward.bind (log_inward _ _) fun _ => Inward.pure _) (Inward.pure _)
    case next =>
      intro c d s₂ t₂ _ _ _ _ hcd
      have hcd' := hcd.after hn
      refine Follows.get ?_
      rw [hcd.next.pair.config hb]
      refine Follows.ite ?_ (Follows.pure hcd')
      refine Follows.bind (log_follows hcd.next.pair _ _ _ _) (fun _ _ s₃ t₃ _ _ _ _ hn₃ => ?_)
        (fun _ => Inward.pure _) fun _ => Inward.pure _
      exact Follows.pure (hcd'.later hn₃)

theorem getContents_inward : Inward (Bounded u) m.getContents := by
  intro r h
  rcases getContents_cases m r with ⟨c, -, hc⟩ | ⟨-, c, r', hbuild, hc⟩ | ⟨-, e, r', hbuild, hc⟩
  · rw [after_of_ok hc] at h
    exact h
  · rw [after_of_ok hc] at h
    exact build_inward.ok hbuild h
  · rw [after_of_error hc] at h
    exact build_inward.error hbuild h

/-- The contents are those of the model before both lookups, or were built by a stage of the lookups. -/
def Filled (u : ClassTable) (a b s t : Registry) (m n : Model) (c d : Contents) (s' t' : Registry) :
    Prop :=
  s'.contents? m = some c ∧ t'.contents? n = some d ∧
    ∃ s₁ t₁, Matched u a b s t c d s₁ t₁ ∧ t'.classes = t₁.classes

/-- A model that has contents in either registry was there before both lookups. -/
theorem Paired.eq_of_contents (hb : Leftover a b) (h : Paired u a b s t m n) {c : Contents}
    (hc : s.contents? m = some c ∨ t.contents? n = some c) : m = n := by
  have hpair := h.twins.next.pair
  rcases hc with hc | hc
  · have hold : a.contents.find? m.id = some c := by
      rw [← hpair.freshGrown.contents]
      exact hc
    obtain ⟨k, hk, hid⟩ := hb.valid.model_of_contents hold
    have hkm : k = m :=
      hpair.fresh.valid.eq_of_id (hpair.freshGrown.models.subset hk) h.twins.left hid
    exact eq_of_key hb.valid hpair.later.valid (hb.models.trans hpair.laterGrown.models)
      (hkm ▸ hk) h.twins.right h.twins.key
  · have hold : a.contents.find? n.id = some c := by
      rw [← hb.contents, ← hpair.laterGrown.contents]
      exact hc
    obtain ⟨k, hk, hid⟩ := hb.valid.model_of_contents hold
    have hkn : k = n :=
      hpair.later.valid.eq_of_id ((hb.models.trans hpair.laterGrown.models).subset hk) h.twins.right
        hid
    exact (eq_of_key hb.valid hpair.fresh.valid hpair.freshGrown.models (hkn ▸ hk) h.twins.left
      h.twins.key.symm).symm

theorem getContents_follows (hb : Leftover a b) (h : Paired u a b s t m n)
    (hkind : m.kind = n.kind) :
    Follows (Bounded u) s t m.getContents n.getContents (Filled u a b s t m n) := by
  have hpair := h.twins.next.pair
  have hcontents : s.contents = t.contents := by
    rw [hpair.freshGrown.contents, hpair.laterGrown.contents, hb.contents]
  intro d t' hd ht' hs'
  rcases getContents_cases n t with ⟨d', hd', hget⟩ | ⟨hnone, d', t₁, hbuild, hget⟩ |
    ⟨-, e, t₁, -, hget⟩
  · rw [hget] at hd
    cases hd
    cases h.eq_of_contents hb (.inr hd')
    have hc : s.contents? m = some d := by
      unfold contents?
      rw [hcontents]
      exact hd'
    refine ⟨d, s, getContents_of_initialized hc, hc, hd', s, t, ⟨rfl, rfl, ?_, ?_, h.twins.next⟩, rfl⟩
    · exact hpair.fresh.valid.closed m.id d hc
    · exact hpair.later.valid.closed m.id d hd'
  · rw [hget] at hd
    cases hd
    rcases getContents_cases m s with ⟨c, hc, -⟩ | ⟨-, c, s₁, hbuild', hget'⟩ |
      ⟨-, e, s₁, hbuild', hget'⟩
    · -- contents that the fresh model has are contents of the later one, too
      cases h.eq_of_contents hb (.inl hc)
      unfold contents? at hc hnone
      rw [← hcontents, hc] at hnone
      cases hnone
    · rw [after_of_ok hget'] at hs'
      have hbound : Bounded u (after m.build s) := by rw [after_of_ok hbuild']; exact hs'
      obtain ⟨c', s₂, hm, hmatched⟩ := build_follows hb h hkind d t₁ hbuild ht' hbound
      rw [hbuild'] at hm
      cases hm
      exact ⟨c, _, hget', getContents_ok hget', getContents_ok hget, s₁, t₁, hmatched, rfl⟩
    · rw [after_of_error hget'] at hs'
      have hbound : Bounded u (after m.build s) := by rw [after_of_error hbuild']; exact hs'
      obtain ⟨c', s₂, hm, -⟩ := build_follows hb h hkind d t₁ hbuild ht' hbound
      rw [hbuild'] at hm
      cases hm
  · rw [hget] at hd
    cases hd

end Model
end Introspect
