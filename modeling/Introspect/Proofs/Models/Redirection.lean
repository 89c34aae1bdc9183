import Introspect.Proofs.Models.Keys

/-!
The way of a search.

The search for a model goes on from a synthetic class with a superclass: the superclass, resolved against the
type that was asked for, takes the place of that type, until the search comes to a class that stands for no other.

* `GivesWay`: one redirection of a search.
* `GivesWay.modelFor`, `GivesWay.later`: the search from the next type, now and later on.
* `modelWithin_ends`, `modelFor_endsAt`, `EndsAt`: where a search ends.
-/

namespace Introspect

open Relation

theorem Class.redirect?_eq_none_iff {c : Class} :
    c.redirect? = none ↔ (c.synthetic = true → c.superclass = none) := by
  unfold redirect?
  cases c.synthetic <;> simp

theorem Class.redirect?_eq_some_iff {c : Class} {superclass : TypeExpr} :
    c.redirect? = some superclass ↔ c.synthetic = true ∧ c.superclass = some superclass := by
  unfold redirect?
  cases c.synthetic <;> simp

namespace Registry

open ClassTable TypeExpr

/-! ## Redirections -/

/-- The class of the type is synthetic: its superclass, resolved against the type, takes the place of the
type. Resolution may leave array classes behind. -/
def GivesWay (p q : Registry × TypeExpr) : Prop :=
  ∃ raw args c superclass, p.2.parts? = some (raw, args) ∧ p.1.classes.find? raw = some c ∧
    c.synthetic = true ∧ c.superclass = some superclass ∧
    onTable (ClassTable.resolve superclass p.2) p.1 = .ok q.2 q.1

section

variable {p q : Registry × TypeExpr}

theorem GivesWay.modelWithin (h : GivesWay p q) (n : Nat) :
    Registry.modelWithin (n + 1) p.2 p.1 = Registry.modelWithin n q.2 q.1 := by
  obtain ⟨raw, args, c, superclass, hparts, hc, hsynthetic, hsuper, hresolve⟩ := h
  rw [modelWithin_apply]
  simp only [hparts, lookup_eq_ok_iff.2 hc, Class.redirect?_eq_some_iff.2 ⟨hsynthetic, hsuper⟩]
  exact bind_of_ok hresolve

/-- The search from the next type ends as the search does. -/
theorem GivesWay.modelFor (h : GivesWay p q) {m : Model} {r : Registry}
    (hm : Registry.modelFor p.2 p.1 = .ok m r) : Registry.modelFor q.2 q.1 = .ok m r := by
  obtain ⟨n, hn⟩ : ∃ n, redirectionLimit = n + 1 := ⟨0xFFFFFF, rfl⟩
  unfold Registry.modelFor at hm ⊢
  rw [hn] at hm ⊢
  rw [h.modelWithin] at hm
  exact modelWithin_succ hm

/-- Later on the type gives way to the same one. -/
theorem GivesWay.later (h : GivesWay p q) {u : Registry} (hu : q.1.classes.Within u.classes) :
    GivesWay (u, p.2) (u, q.2) := by
  obtain ⟨raw, args, c, superclass, hparts, hc, hsynthetic, hsuper, hresolve⟩ := h
  obtain ⟨t, ht, hq⟩ := onTable_eq_ok hresolve
  have hqt : q.1.classes = t := by rw [hq]
  rw [hqt] at hu
  have htu : p.1.classes.Within u.classes :=
    Within.trans _ _ _ ((resolve_grows superclass p.2).ok ht) hu
  exact ⟨raw, args, c, superclass, hparts, htu _ _ hc, hsynthetic, hsuper,
    onTable_of_unchanged (resolve_replays superclass p.2 _ _ _ _ ht hu)⟩

theorem GivesWay.keeps (h : GivesWay p q) (hv : p.1.Valid) :
    q.1.Valid ∧ p.1.Grown q.1 ∧ Resolved (depthLimit + 1) q.2 := by
  obtain ⟨-, -, -, superclass, -, -, -, -, hresolve⟩ := h
  exact (resolve_keeps superclass p.2).of_ok hv hresolve

/-! ## The way of a search -/

theorem way_within (h : ReflTransGen GivesWay p q) : p.1.classes.Within q.1.classes := by
  induction h with
  | refl => exact Within.refl _
  | tail _ hstep ih =>
    obtain ⟨-, -, -, superclass, -, -, -, -, hresolve⟩ := hstep
    obtain ⟨t, ht, hq⟩ := onTable_eq_ok hresolve
    rw [hq]
    exact Within.trans _ _ _ ih ((resolve_grows superclass _).ok ht)

/-- Where a search has come to, its registry has grown at most. -/
theorem way_grown (h : ReflTransGen GivesWay p q) (hv : p.1.Valid) :
    q.1.Valid ∧ p.1.Grown q.1 := by
  induction h with
  | refl => exact ⟨hv, Grown.refl _⟩
  | tail _ hstep ih =>
    obtain ⟨hvq, hg, -⟩ := hstep.keeps ih.1
    exact ⟨hvq, ih.2.trans hg⟩

variable {found : Registry} {m : Model}

/-- On its way the search is one for the same model. -/
theorem modelFor_of_way (h : ReflTransGen GivesWay p q) (hv : p.1.Valid)
    (hty : Resolved (depthLimit + 1) p.2) (hm : modelFor p.2 p.1 = .ok m found) :
    q.1.Valid ∧ Resolved (depthLimit + 1) q.2 ∧ modelFor q.2 q.1 = .ok m found := by
  induction h with
  | refl => exact ⟨hv, hty, hm⟩
  | tail _ hstep ih =>
    obtain ⟨hvq, -, hq⟩ := hstep.keeps ih.1
    exact ⟨hvq, hq, hstep.modelFor ih.2.2⟩

/-- Where one type gives way to the next, a later search finds the same from both. -/
theorem modelFor_of_way_later (h : ReflTransGen GivesWay p q) {v w : Registry}
    (hv : q.1.classes.Within v.classes) {n : Model} (hn : modelFor p.2 v = .ok n w) :
    modelFor q.2 v = .ok n w := by
  induction h with
  | refl => exact hn
  | @tail q s _ hstep ih =>
    have hqv : q.1.classes.Within v.classes :=
      Within.trans _ _ _ (way_within (.single hstep)) hv
    exact (hstep.later hv).modelFor (ih hqv)

/-- A search goes on until it comes to a class that gives way to no other, and looks there for a model of
that class; so does a later search, with the same class and arguments. -/
theorem modelWithin_ends {n : Nat} {r : Registry} {ty : TypeExpr}
    (hm : modelWithin n ty r = .ok m found) :
    ∃ s last args c, ReflTransGen GivesWay (r, ty) (s, last) ∧
      last.parts? = some (m.raw, args) ∧ s.classes.find? m.raw = some c ∧ c.redirect? = none ∧
      cachedModel last c m.raw args s = .ok m found ∧
      ∀ v : Registry, s.classes.Within v.classes →
        modelWithin n ty v = cachedModel last c m.raw args v := by
  induction n generalizing ty r with
  | zero => cases hm
  | succ n ih =>
    obtain ⟨raw, args, c, hparts, hc, hgo⟩ := modelWithin_succ_eq_ok hm
    have hfound := lookup_eq_ok_iff.1 hc
    rcases hgo with ⟨superclass, hs, hgo⟩ | ⟨hdirect, hgo⟩
    · obtain ⟨next, u, hresolve, hrest⟩ := bind_eq_ok_iff.1 hgo
      obtain ⟨hsynthetic, hsuper⟩ := Class.redirect?_eq_some_iff.1 hs
      have hstep : GivesWay (r, ty) (u, next) :=
        ⟨raw, args, c, superclass, hparts, hfound, hsynthetic, hsuper, hresolve⟩
      obtain ⟨s, last, args', c', hway, hlast, hc', hdirect, hcached, hlater⟩ := ih hrest
      refine ⟨s, last, args', c', .head hstep hway, hlast, hc', hdirect, hcached, fun v hsv => ?_⟩
      have huv : u.classes.Within v.classes := Within.trans _ _ _ (way_within hway) hsv
      exact ((hstep.later huv).modelWithin n).trans (hlater v hsv)
    · obtain rfl := cachedModel_raw hgo
      exact ⟨r, ty, args, c, .refl, hparts, hfound, hdirect, hgo, fun v hrv =>
        modelWithin_direct n hparts (hrv.lookup hc) hdirect⟩

/-- Where a search ends, its model is looked for by the key that the class has there. -/
theorem modelFor_endsAt {r : Registry} {ty : TypeExpr} (hv : r.Valid) (hty : Resolved (depthLimit + 1) ty)
    (hm : modelFor ty r = .ok m found) :
    ∃ s last args c, ReflTransGen GivesWay (r, ty) (s, last) ∧
      last.parts? = some (m.raw, args) ∧ s.classes.find? m.raw = some c ∧ c.redirect? = none ∧
      m.key = s.keyFor c m.raw args ∧ s.Grown found ∧
      ∀ v : Registry, s.classes.Within v.classes → modelFor ty v = cachedModel last c m.raw args v := by
  obtain ⟨s, last, args, c, hway, hlast, hc, hdirect, hcached, hlater⟩ := modelWithin_ends hm
  obtain ⟨hvs, hrs, -⟩ := modelFor_of_way hway hv hty hm
  obtain ⟨-, hsf, -⟩ := (cachedModel_keeps hlast hrs hc hdirect).of_ok hvs hcached
  exact ⟨s, last, args, c, hway, hlast, hc, hdirect, cachedModel_key hcached, hsf, hlater⟩

end

/-- A lookup of the type comes to a class that gives way to no other, with these arguments. -/
def EndsAt (r : Registry) (ty : TypeExpr) (id : ClassId) (args : List TypeExpr) : Prop :=
  ∃ concrete start s last c, onTable (ClassTable.resolve ty ty) r = .ok concrete start ∧
    ReflTransGen GivesWay (start, concrete) (s, last) ∧ last.parts? = some (id, args) ∧
    s.classes.find? id = some c ∧ c.redirect? = none

end Registry
end Introspect
