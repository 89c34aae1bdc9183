import Introspect.Proofs.Models.Rebuild

/-!
What a failed lookup leaves behind, and what a later lookup of the same type shows of it.

The failed lookup has cached models, and a kind was decided for each while classes were missing. It is
never decided again, so that a later lookup shows the kinds of then.

* `Registry.report`: what a lookup shows.
* `Pair.kind_iff`: when two models of one key have the same kind.
* `report_iff`: the later lookup shows what it would have shown without the failure exactly when the kinds
  it shows are those of now.
-/

namespace Introspect

open Registry ClassTable TypeExpr

/-! ## What a lookup shows -/

/-- Kind of a model, and class and arguments of its type. -/
def Model.face (m : Model) : ModelKind × Option (ClassId × List TypeExpr) := (m.kind, m.type.parts?)

structure PropertyView where
  name : String
  value : ModelKind × Option (ClassId × List TypeExpr)
  isTransient : Bool
  isObservable : Bool
  deriving DecidableEq

def Property.view (p : Property) : PropertyView := ⟨p.name, p.model.face, p.isTransient, p.isObservable⟩

structure ModelView where
  face : ModelKind × Option (ClassId × List TypeExpr)
  properties : List PropertyView
  parameters : List (ModelKind × Option (ClassId × List TypeExpr))
  deriving DecidableEq

/-- Outcome of a lookup, as a caller sees it. -/
inductive Report where
  | found (view : ModelView)
  | failed (e : Error)
  deriving DecidableEq

namespace Registry

/-- A model that is not initialized shows no properties and no parameters. -/
def view (r : Registry) (m : Model) : ModelView :=
  let c := (r.contents? m).getD ⟨[], []⟩
  ⟨m.face, c.properties.map Property.view, c.parameters.map Model.face⟩

def report (r : Registry) (ty : TypeExpr) : Report :=
  match ofType ty r with
  | .ok m r' => .found (r'.view m)
  | .error e _ => .failed e

/-- The models whose kinds a view shows: the model itself and those its contents lead to. -/
def shown (r : Registry) (m : Model) : List Model :=
  m :: ((r.contents? m).map Contents.models).getD []

/-- The kind of the model is the one that would be decided now. -/
def Current (r : Registry) (m : Model) : Prop := m.kind = r.kindOf m.cls m.codec m.key.args

instance (r : Registry) (m : Model) : Decidable (r.Current m) :=
  inferInstanceAs (Decidable (m.kind = _))

theorem view_of_contents {r : Registry} {m : Model} {c : Contents} (h : r.contents? m = some c) :
    r.view m = ⟨m.face, c.properties.map Property.view, c.parameters.map Model.face⟩ := by
  unfold view
  rw [h]
  rfl

theorem shown_of_contents {r : Registry} {m : Model} {c : Contents} (h : r.contents? m = some c) :
    r.shown m = m :: c.models := by
  unfold shown
  rw [h]
  rfl

/-! ## Kinds -/

variable {u : ClassTable} {a b s t : Registry}

theorem Entry.known {t : ClassTable} {m : Model} (h : Entry t m) : t.contains m.cls.id = true := by
  rw [find?_id h.cls]
  exact contains_iff.2 ⟨m.cls, h.cls⟩

theorem Current.congr {r r' : Registry} (h : Anchored u r.classes) (h' : Anchored u r'.classes)
    {m : Model} (he : Entry r.classes m) (he' : Entry r'.classes m) : r.Current m ↔ r'.Current m := by
  unfold Current
  rw [kindOf_agrees h h' he.known he'.known]

/-- The models that a lookup makes are current until its end. -/
theorem Grown.current {r r' : Registry} (h : Stage u r) (hg : r.Grown r') (h' : Stage u r')
    {m : Model} (hm : m ∈ r'.models) : m ∈ r.models ∨ r'.Current m := by
  rcases hg.made m hm with hold | ⟨x, hext, hwithin, -, hmade⟩
  · exact .inl hold
  · refine .inr ?_
    have hx : Anchored u x.classes :=
      h.anchored.extend hext (Within.trans _ _ _ hwithin h'.anchored.within)
    unfold Current
    rw [hmade.kind, kindOf_agrees hx h'.anchored hmade.known (hwithin.contains hmade.known)]

/-- Two models of one key have the same kind unless the later one was left behind and is not current. -/
theorem Pair.kind_iff (h : Pair u a b s t) (hb : Leftover a b) (h₀ : Pair u a b a b) {m n : Model}
    (hm : m ∈ s.models) (hn : n ∈ t.models) (hkey : m.key = n.key) :
    m.kind = n.kind ↔ (n ∈ b.models → n ∉ a.models → t.Current n) := by
  by_cases hold : n ∈ a.models
  · have hmn : n = m := eq_of_key hb.valid h.fresh.valid h.freshGrown.models hold hm hkey.symm
    exact iff_of_true (by rw [hmn]) fun _ hnew => absurd hold hnew
  · have hnew : m ∉ a.models := fun hm' => hold
      (eq_of_key hb.valid h.later.valid (hb.models.trans h.laterGrown.models) hm' hn hkey ▸ hm')
    have hnow : m.kind = t.kindOf n.cls n.codec n.key.args := by
      have hcurrent := (h.freshGrown.current h₀.fresh h.fresh hm).resolve_left hnew
      obtain ⟨hcls, hcodec⟩ := h.twin hb hm hn hkey
      unfold Current at hcurrent
      rw [hcurrent, kindOf_agrees h.fresh.anchored h.later.anchored
        (h.fresh.valid.entry m hm).known (hcls ▸ (h.later.valid.entry n hn).known), hcls, hcodec,
        hkey]
    constructor
    · intro heq _ _
      unfold Current
      rw [← heq, hnow]
    · intro hleft
      rcases h.laterGrown.current h₀.later h.later hn with hnb | hcurrent
      · rw [hnow, hleft hnb hold]
      · rw [hnow, hcurrent]

end Registry

/-! ## Views -/

variable {u : ClassTable} {a b s t : Registry}

/-- Lists of the same keys look the same exactly when their members do. -/
theorem map_eq_map_iff {α κ ν : Type} {f : α → κ} {g : α → ν} {P : α → Prop} {xs ys : List α}
    (hkey : xs.map f = ys.map f) (hP : ∀ x ∈ xs, ∀ y ∈ ys, f x = f y → (g x = g y ↔ P y)) :
    xs.map g = ys.map g ↔ ∀ y ∈ ys, P y := by
  induction xs generalizing ys with
  | nil =>
    cases ys with
    | nil => simp
    | cons y ys => cases hkey
  | cons x xs ih =>
    cases ys with
    | nil => cases hkey
    | cons y ys =>
      obtain ⟨hxy, hrest⟩ := List.cons.inj hkey
      have hhead := hP x (List.mem_cons_self ..) y (List.mem_cons_self ..) hxy
      have htail := ih hrest fun x' hx y' hy =>
        hP x' (List.mem_cons_of_mem _ hx) y' (List.mem_cons_of_mem _ hy)
      simp only [List.map_cons, List.cons.injEq, List.forall_mem_cons, hhead, htail]

theorem face_iff {m n : Model} {t t' : ClassTable} (hm : Entry t m) (hn : Entry t' n)
    (hkey : m.key = n.key) : m.face = n.face ↔ m.kind = n.kind := by
  unfold Model.face
  rw [hm.parts, hn.parts, hkey]
  simp

theorem Property.view_iff {p q : Property} {t t' : ClassTable} (hp : Entry t p.model)
    (hq : Entry t' q.model) (h : p.outline = q.outline) :
    p.view = q.view ↔ p.model.kind = q.model.kind := by
  have hname : p.name = q.name := congrArg Outline.name h
  have htransient : p.isTransient = q.isTransient := congrArg Outline.isTransient h
  have haccess : p.access = q.access := congrArg Outline.access h
  have hkey : p.model.key = q.model.key := congrArg Outline.key h
  rw [← face_iff hp hq hkey]
  unfold Property.view Property.isObservable
  rw [hname, htransient, haccess]
  simp

/-- Matching contents look the same exactly when what they lead to is current, as far as it was left
behind. -/
theorem Matched.view_iff (hb : Leftover a b) (h₀ : Pair u a b a b) {s₁ t₁ : Registry}
    {c d : Contents} (h : Matched u a b s t c d s₁ t₁) :
    (c.properties.map Property.view = d.properties.map Property.view ∧
        c.parameters.map Model.face = d.parameters.map Model.face) ↔
      ∀ k ∈ d.models, k ∈ b.models → k ∉ a.models → t₁.Current k := by
  have hpair := h.next.pair
  obtain ⟨hps, hms⟩ := Model.leads_iff.1 h.left
  obtain ⟨hqs, hns⟩ := Model.leads_iff.1 h.right
  have hproperties := map_eq_map_iff (g := Property.view)
    (P := fun q => q.model ∈ b.models → q.model ∉ a.models → t₁.Current q.model) h.outlines
    fun p hp q hq hpq => by
      rw [Property.view_iff (hpair.fresh.valid.entry _ (hps p hp))
        (hpair.later.valid.entry _ (hqs q hq)) hpq]
      exact hpair.kind_iff hb h₀ (hps p hp) (hqs q hq) (congrArg Outline.key hpq)
  have hparameters := map_eq_map_iff (g := Model.face)
    (P := fun n => n ∈ b.models → n ∉ a.models → t₁.Current n) h.keys
    fun m hm n hn hmn => by
      rw [face_iff (hpair.fresh.valid.entry _ (hms m hm)) (hpair.later.valid.entry _ (hns n hn)) hmn]
      exact hpair.kind_iff hb h₀ (hms m hm) (hns n hn) hmn
  rw [hproperties, hparameters]
  unfold Contents.models
  simp only [List.mem_append, List.mem_map]
  constructor
  · rintro ⟨hl, hr⟩ k (⟨q, hq, rfl⟩ | hk)
    · exact hl q hq
    · exact hr k hk
  · exact fun hall => ⟨fun q hq => hall _ (.inl ⟨q, hq, rfl⟩), fun n hn => hall n (.inr hn)⟩

/-! ## Lookups -/

namespace Registry

/-- A lookup that ends within the larger table has found its model there. -/
theorem modelOf_bounded {ty : TypeExpr} {r : Registry} (h : Bounded u (after (ofType ty) r)) :
    Bounded u (after (modelOf ty) r) := by
  cases hm : modelOf ty r with
  | error e r₁ =>
    rw [after_of_error (ofType_of_error hm)] at h
    rw [after_of_error hm]
    exact h
  | ok m r₁ =>
    rw [after_ofType hm] at h
    rw [after_of_ok hm]
    exact Model.getContents_inward r₁ h

theorem modelOf_grounded {ty : TypeExpr} {r r' : Registry} {m : Model} (h : Stage u r)
    (hty : Grounded u r.classes ty) (hm : modelOf ty r = .ok m r') (hu : Bounded u r') :
    ∀ arg ∈ m.key.args, Grounded u r'.classes arg := by
  obtain ⟨concrete, r₁, hr, hfor⟩ := bind_eq_ok_iff.1 hm
  obtain ⟨hv, hg, hres⟩ := (resolve_keeps ty ty).of_ok h.valid hr
  have hu₁ : Bounded u r₁ := (modelFor_inward concrete).ok hfor hu
  exact modelWithin_grounded (h.later hg hv hu₁) hres (resolve_grounded h hty hty hr hu₁) hfor hu

theorem modelOf_follows {ty : TypeExpr} (hb : Leftover a b) (h : Pair u a b s t)
    (hty : Both u s t ty) :
    Follows (Bounded u) s t (modelOf ty) (modelOf ty) (Twins u a b s t) := by
  refine Follows.bind (resolve_follows h rfl hty.fresh hty.fresh) ?next modelFor_inward
    modelFor_inward
  rintro concrete _ s' t' - - - - ⟨rfl, hn, hres, hg⟩
  exact (modelFor_follows hb hn.pair hres hg).mono fun _ _ _ _ h' =>
    ⟨h'.key, h'.left, h'.right, hn.trans h'.next⟩

theorem modelOf_paired {ty : TypeExpr} (hb : Leftover a b) (h : Pair u a b a b)
    (hty : Both u a b ty) {m n : Model} (hm : modelOf ty a = .ok m s) (hn : modelOf ty b = .ok n t)
    (hs : Bounded u s) (ht : Bounded u t) : Model.Paired u a b s t m n := by
  obtain ⟨m', s', hm', htwins⟩ := modelOf_follows hb h hty n t hn ht (by rw [after_of_ok hm]; exact hs)
  rw [hm] at hm'
  cases hm'
  exact ⟨⟨htwins.key, htwins.left, htwins.right, Next.refl htwins.next.pair⟩,
    modelOf_grounded h.fresh hty.fresh hm hs, modelOf_grounded h.later hty.later hn ht⟩

theorem getContents_extends {r r' : Registry} {m : Model} {c : Contents} (hv : r.Valid)
    (hm : m ∈ r.models) (h : m.getContents r = .ok c r') : r.classes.Extends r'.classes := by
  rcases Model.getContents_cases m r with ⟨d, -, hget⟩ | ⟨-, d, r₁, hbuild, hget⟩ | ⟨-, e, r₁, -, hget⟩
  · rw [hget] at h
    cases h
    exact Extends.refl _
  · rw [hget] at h
    cases h
    exact ((Model.build_keeps (hv.entry m hm).resolved).of_ok hv hbuild).2.1.classes
  · rw [hget] at h
    cases h

theorem report_of_ok {ty : TypeExpr} {r r' : Registry} {m : Model} (h : ofType ty r = .ok m r') :
    r.report ty = .found (r'.view m) := by
  unfold report
  rw [h]

/-- Whatever contents it has, a model that is found shows its kind. -/
theorem kind_of_report {ty : TypeExpr} {r r₁ : Registry} {m : Model} {v : ModelView}
    (hm : modelOf ty r = .ok m r₁) (h : r.report ty = .found v) : m.kind = v.face.1 := by
  unfold report at h
  rw [ofType_of_ok hm] at h
  cases hc : m.getContents r₁ with
  | ok c r₂ => rw [hc] at h; cases h; rfl
  | error e r₂ => rw [hc] at h; cases h

/-- With models of the same kind, the lookups show the same exactly when what the contents lead to is
current. -/
theorem report_iff_of_kind {ty : TypeExpr} {m n : Model} {d : Contents} {y : Registry}
    (hb : Leftover a b) (h : Pair u a b a b) (hp : Model.Paired u a b s t m n)
    (hkind : m.kind = n.kind) (hm : modelOf ty a = .ok m s) (hn : modelOf ty b = .ok n t)
    (hd : n.getContents t = .ok d y) (hu : Bounded u (after m.getContents s)) (hu' : Bounded u y) :
    a.report ty = b.report ty ↔ ∀ k ∈ d.models, k ∈ b.models → k ∉ a.models → y.Current k := by
  obtain ⟨c, x, hc, hx, hy, s₁, t₁, hmatched, hclasses⟩ :=
    Model.getContents_follows hb hp hkind d y hd hu' hu
  have hcurrent : ∀ k, t₁.Current k ↔ y.Current k := by
    intro k
    unfold Current kindOf
    rw [hclasses]
  have hface : m.face = n.face := (face_iff hp.entries.1 hp.entries.2 hp.twins.key).2 hkind
  rw [report_of_ok (ofType_of_getContents hm hc), report_of_ok (ofType_of_getContents hn hd),
    view_of_contents hx, view_of_contents hy]
  simp only [Report.found.injEq, ModelView.mk.injEq, hface, true_and]
  rw [hmatched.view_iff hb h]
  simp only [hcurrent]

/-- The later lookup shows what a fresh one shows exactly when the models it shows are current, as far as
they were left behind. -/
theorem report_iff {ty : TypeExpr} {n : Model} {y : Registry} (hb : Leftover a b)
    (h : Pair u a b a b) (hty : Both u a b ty) (hy : ofType ty b = .ok n y)
    (hu : Bounded u (after (ofType ty) a)) (hu' : Bounded u y) :
    a.report ty = b.report ty ↔ ∀ k ∈ y.shown n, k ∈ b.models → k ∉ a.models → y.Current k := by
  obtain ⟨t, d, hn, hd⟩ := ofType_stages hy
  have ht : Bounded u t := Model.getContents_inward.ok hd hu'
  have hbound := modelOf_bounded hu
  obtain ⟨m, s, hm, -⟩ := modelOf_follows hb h hty n t hn ht hbound
  rw [after_of_ok hm] at hbound
  rw [after_ofType hm] at hu
  have hp := modelOf_paired hb h hty hm hn hbound ht
  have hpair := hp.twins.next.pair
  have hext := getContents_extends hpair.later.valid hp.twins.right hd
  have hkind : m.kind = n.kind ↔ (n ∈ b.models → n ∉ a.models → y.Current n) := by
    rw [hpair.kind_iff hb h hp.twins.left hp.twins.right hp.twins.key,
      Current.congr hpair.later.anchored (hpair.later.anchored.extend hext hu') hp.entries.2
        (hp.entries.2.mono hext.within)]
  have hsame := fun hk : m.kind = n.kind => report_iff_of_kind hb h hp hk hm hn hd hu hu'
  rw [shown_of_contents (Model.getContents_ok hd), List.forall_mem_cons]
  constructor
  · intro heq
    have hk : m.kind = n.kind := kind_of_report hm (heq.trans (report_of_ok hy))
    exact ⟨hkind.1 hk, (hsame hk).1 heq⟩
  · rintro ⟨hcurrent, hrest⟩
    exact (hsame (hkind.2 hcurrent)).2 hrest

end Registry
end Introspect
