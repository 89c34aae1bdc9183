import Introspect.Proofs.Models.Description
import Mathlib.Data.List.Sort

/-!
Scans that visit the accessor pairs in different orders.

Over a closed table the order leaves no trace: both scans fit one description, and the models of which it
speaks have the same keys in the two registries that the scans leave behind.

* `Begins.key_eq`, `HeldType.key_eq`: the models of what a type resolves to, and of what a holder holds.
* `Description.outline_eq`: one property in both scans.
* `Begins.outlines_eq`: all of them.
-/

namespace Introspect

open Registry ClassTable TypeExpr

namespace Scan

variable {S : Scan} {r s w : Registry} {types chain : List Class} {ps qs : List Property} {p q : Property}

/-! ## Keys -/

/-- A type that resolves in the registry resolves again in those that have grown from it, to the same answer. -/
theorem Begins.resolve_again (h : S.Begins r) (hkin : Kin r s w) {ty value : TypeExpr} {r' : Registry}
    (hty : r.classes.Knows ty) (hvalue : S.resolve ty r = .ok value r') :
    ∃ s' w', Kin r s' w' ∧ s.Grown s' ∧ w.Grown w' ∧ Resolved (depthLimit + 1) value ∧
      s'.classes.Knows value ∧ w'.classes.Knows value := by
  have hback : ∀ {x : Registry}, x.Valid → r.Grown x → Kin r x r := fun hv hg =>
    ⟨h.base, hg, hv, Grown.refl r, h.valid⟩
  obtain ⟨s', -, hs⟩ := h.resolve (hback hkin.leftValid hkin.left) hty hvalue
  obtain ⟨w', -, hw⟩ := h.resolve (hback hkin.rightValid hkin.right) hty hvalue
  exact ⟨s', w', ⟨h.base, hs.kin.left, hs.kin.leftValid, hw.kin.left, hw.kin.leftValid⟩, hs.left, hw.left,
    hs.resolved, hs.leftKnows, hw.leftKnows⟩

/-- The models of a type that was found in both registries have one key. -/
theorem Begins.key_eq (h : S.Begins r) (hkin : Kin r s w) {ty value : TypeExpr} {r' : Registry} {m n : Model}
    (hty : r.classes.Knows ty) (hvalue : S.resolve ty r = .ok value r')
    (hm : Registry.modelFor value s = .ok m s) (hn : Registry.modelFor value w = .ok n w) : m.key = n.key := by
  obtain ⟨s', w', hkin', hs, hw, hres, hks, hkw⟩ := h.resolve_again hkin hty hvalue
  exact hkin'.key_eq hres hks hkw (h.modelFor hkin.leftValid hkin.left hres hm hs)
    (h.modelFor hkin.rightValid hkin.right hres hn hw)

/-- A holder of one type holds the same in both registries, with models of one key. -/
theorem HeldType.key_eq (hkin : Kin r s w) {ty held held' : TypeExpr} {m n : Model} {s' w' : Registry}
    (hs : s.classes.Knows ty) (hw : w.classes.Knows ty) (hheld : HeldType s.classes ty held)
    (hheld' : HeldType w.classes ty held') (hm : Registry.modelFor held s = .ok m s')
    (hn : Registry.modelFor held' w = .ok n w') : m.key = n.key := by
  have hres := hheld.resolved
  obtain ⟨args, hargs, hfirst⟩ := hheld
  obtain ⟨args', hargs', hfirst'⟩ := hheld'
  cases hargs.symm.trans (hkin.table.collectParameters hs hargs')
  have hknows : s.classes.Knows held ∧ w.classes.Knows held ∧ held = held' := by
    cases ha : args.head? with
    | none =>
      simp only [ha] at hfirst hfirst'
      rw [hfirst, hfirst']
      exact ⟨hkin.table.sealed_left.knows_object, hkin.table.sealed_right.knows_object, rfl⟩
    | some arg =>
      simp only [ha] at hfirst hfirst'
      have hin : arg ∈ args := List.mem_of_mem_head? ha
      have hsarg := hkin.table.sealed_left.collected hs hargs arg hin
      have hwarg := hkin.table.sealed_right.collected hw hargs' arg hin
      obtain ⟨t, ht, -⟩ := hkin.table.resolve hsarg hs hfirst'
      cases hfirst.symm.trans ht
      exact ⟨hkin.table.sealed_left.resolved hsarg hs hfirst, hkin.table.sealed_right.resolved hwarg hw hfirst', rfl⟩
  obtain ⟨hsheld, hwheld, rfl⟩ := hknows
  exact hkin.key_eq hres hsheld hwheld hm hn

/-! ## Outlines -/

theorem PairProperty.outline_eq (h : S.Begins r) (hkin : Kin r s w) {getter setter : Method}
    (hname : p.name = q.name) (hget : ∀ ty, getter.returns = some ty → r.classes.Knows ty)
    (hp : S.PairProperty r s types getter setter p) (hq : S.PairProperty r w types getter setter q) :
    p.outline = q.outline := by
  obtain ⟨value, ⟨returns, _, _, _, _, hreturns, -, hvalue, -⟩, hm, htransient, haccess⟩ := hp
  obtain ⟨value', ⟨returns', _, _, _, _, hreturns', -, hvalue', -⟩, hn, htransient', haccess'⟩ := hq
  cases hreturns.symm.trans hreturns'
  cases hvalue.symm.trans hvalue'
  have hkey := h.key_eq hkin (hget returns hreturns) hvalue hm hn
  simp only [Property.outline, hname, htransient, htransient', haccess, haccess', hkey]

theorem FieldProperty.outline_eq (h : S.Begins r) (hkin : Kin r s w) {f : Field} (hname : p.name = q.name)
    (hf : r.classes.Knows f.type) (hp : S.FieldProperty r s f p) (hq : S.FieldProperty r w f q) :
    p.outline = q.outline := by
  obtain ⟨htransient, ty, r₁, hty, hp⟩ := hp
  obtain ⟨htransient', ty', r₁', hty', hq⟩ := hq
  cases hty.symm.trans hty'
  have hshown : p.access = q.access ∧ p.model.key = q.model.key := by
    split at hp
    · next hheld =>
      rw [if_pos hheld] at hq
      obtain ⟨haccess, held, hheldType, hm⟩ := hp
      obtain ⟨haccess', held', hheldType', hn⟩ := hq
      obtain ⟨s', w', hkin', hs, hw, -, hks, hkw⟩ := h.resolve_again hkin hf hty
      exact ⟨haccess.trans haccess'.symm, HeldType.key_eq hkin' hks hkw (hheldType.mono hs.within)
        (hheldType'.mono hw.within)
        (h.modelFor hkin.leftValid hkin.left hheldType.resolved hm hs)
        (h.modelFor hkin.rightValid hkin.right hheldType'.resolved hn hw)⟩
    · next hheld =>
      rw [if_neg hheld] at hq
      exact ⟨hp.1.trans hq.1.symm, h.key_eq hkin hf hty hp.2 hq.2⟩
  simp only [Property.outline, hname, htransient, htransient', hshown.1, hshown.2]

theorem FirstEligible.mem {fields : List Field} {name : String} {f : Field}
    (h : S.FirstEligible r fields name f) : f ∈ fields := by
  obtain ⟨before, rest, rfl, -⟩ := h
  simp

theorem FirstEligible.unique {fields : List Field} {name : String} {f g : Field}
    (h : S.FirstEligible r fields name f) (h' : S.FirstEligible r fields name g) : f = g := by
  obtain ⟨before, rest, rfl, hname, heligible, hfirst⟩ := h
  obtain ⟨before', rest', hsplit, hname', heligible', hfirst'⟩ := h'
  rcases List.append_eq_append_iff.1 hsplit with ⟨mid, rfl, hmid⟩ | ⟨mid, rfl, hmid⟩
  · cases mid with
    | nil => exact (List.cons.inj hmid).1
    | cons x mid =>
      obtain rfl : f = x := (List.cons.inj hmid).1
      exact absurd heligible (hfirst' f (by simp) hname)
  · cases mid with
    | nil => exact (List.cons.inj hmid).1.symm
    | cons x mid =>
      obtain rfl : g = x := (List.cons.inj hmid).1
      exact absurd heligible' (hfirst g (by simp) hname')

/-- One name stands for the same in both descriptions. -/
theorem Description.outline_eq (h : S.Begins r) (hkin : Kin r s w)
    (htypes : r.classes.supertypes S.owner.id = .ok types)
    (hchain : r.classes.superclassChain S.owner = .ok chain) (hps : S.Description r s types chain ps)
    (hqs : S.Description r w types chain qs) (hp : p ∈ ps) (hq : q ∈ qs) (hname : p.name = q.name) :
    p.outline = q.outline := by
  by_cases hpair : S.Paired r types p.name
  · obtain ⟨getter, setter, hgetter, hsetter, hprop⟩ := hps.accessors p hp hpair
    obtain ⟨getter', setter', hgetter', hsetter', hprop'⟩ := hqs.accessors q hq (hname ▸ hpair)
    rw [← hname] at hgetter' hsetter'
    cases hgetter.symm.trans hgetter'
    cases hsetter.symm.trans hsetter'
    obtain ⟨c, hc, hmem⟩ := accessorPairs_declared (pair_of_accessors hgetter hsetter) (.inl rfl)
    have hfound := found_of_supertypes htypes c hc
    exact hprop.outline_eq h hkin hname
      (fun ty hty => h.base.closed c.id c hfound ty (Class.mentions_result hmem hty)) hprop'
  · obtain ⟨f, hfirst, hprop⟩ := hps.fields p hp hpair
    obtain ⟨g, hfirst', hprop'⟩ := hqs.fields q hq (hname ▸ hpair)
    obtain rfl := hfirst.unique (hname ▸ hfirst')
    exact hprop.outline_eq h hkin hname (h.knows_field hchain hfirst.mem) hprop'

theorem Description.names_eq (hps : S.Description r s types chain ps) (hqs : S.Description r w types chain qs) :
    ps.map (·.name) = qs.map (·.name) := by
  have hs : (ps.map (·.name)).Pairwise (· < ·) := List.pairwise_map.2 hps.ordered
  have hw : (qs.map (·.name)).Pairwise (· < ·) := List.pairwise_map.2 hqs.ordered
  refine hs.eq_of_mem_iff hw fun name => ?_
  rw [List.mem_map, List.mem_map, hps.names, hqs.names]

/-- Lists that go through the same names show the same when each name does. -/
theorem map_eq_of_names {β : Type} {g : Property → β} (hnames : ps.map (·.name) = qs.map (·.name))
    (hg : ∀ p ∈ ps, ∀ q ∈ qs, p.name = q.name → g p = g q) : ps.map g = qs.map g := by
  induction ps generalizing qs with
  | nil =>
    cases qs with
    | nil => rfl
    | cons q qs => cases hnames
  | cons p ps ih =>
    cases qs with
    | nil => cases hnames
    | cons q qs =>
      obtain ⟨hname, hrest⟩ := List.cons.inj hnames
      rw [List.map_cons, List.map_cons, hg p List.mem_cons_self q List.mem_cons_self hname,
        ih hrest fun p hp q hq => hg p (List.mem_cons_of_mem _ hp) q (List.mem_cons_of_mem _ hq)]

/-- The order leaves no trace: two scans of one registry that visit the accessor pairs in different orders find
the same names, flags and accesses, and value models of the same keys. -/
theorem Begins.outlines_eq (h : S.Begins r) {arrange arrange' : List AccessorPair → List AccessorPair}
    (harrange : ∀ pairs, (arrange pairs).Perm pairs) (harrange' : ∀ pairs, (arrange' pairs).Perm pairs)
    (hps : S.runVia arrange r = .ok ps s) (hqs : S.runVia arrange' r = .ok qs w) :
    ps.map Property.outline = qs.map Property.outline := by
  obtain ⟨types, chain, htypes, hchain, hdescribed⟩ := h.described harrange hps
  obtain ⟨types', chain', htypes', hchain', hdescribed'⟩ := h.described harrange' hqs
  cases htypes.symm.trans htypes'
  cases hchain.symm.trans hchain'
  obtain ⟨hvs, hgs, -⟩ := (runVia_keeps arrange).of_ok h.valid hps
  obtain ⟨hvw, hgw, -⟩ := (runVia_keeps arrange').of_ok h.valid hqs
  have hkin : Kin r s w := ⟨h.base, hgs, hvs, hgw, hvw⟩
  exact map_eq_of_names (hdescribed.names_eq hdescribed') fun p hp q hq =>
    hdescribed.outline_eq h hkin htypes hchain hdescribed' hp hq

end Scan
end Introspect
