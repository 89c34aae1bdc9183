import Introspect.Proofs.Classes.Closed
import Introspect.Proofs.Models.Comparison

/-!
Registries whose tables declare every class they name.

While models are looked for, classes and models are added. In two registries that have grown from one with a
closed table, the same types resolve, and their models have the same key.

* `Kin`: two such registries.
* `Kin.modelFor`, `Kin.key_eq`: the model of a type is as atomic in the one as in the other, and has the same
  key.
* `modelFor_again`: what was answered once is answered from then on, and nothing is added.
-/

namespace Introspect.Registry

open ClassTable TypeExpr

/-- Two registries that have grown from one with a closed table. -/
structure Kin (r s v : Registry) : Prop where
  base : r.classes.Sealed
  left : r.Grown s
  leftValid : s.Valid
  right : r.Grown v
  rightValid : v.Valid

variable {r s v : Registry}

namespace Kin

theorem table (h : Kin r s v) : Kindred r.classes s.classes v.classes :=
  ⟨h.base, h.left.classes, h.right.classes⟩

theorem step (h : Kin r s v) {s' v' : Registry} (hs : s.Grown s') (hsv : s'.Valid) (hv : v.Grown v')
    (hvv : v'.Valid) : Kin r s' v' :=
  ⟨h.base, h.left.trans hs, hsv, h.right.trans hv, hvv⟩

/-! ## Resolution -/

theorem resolve (h : Kin r s v) {ty site answer : TypeExpr} {v' : Registry}
    (hty : s.classes.Knows ty) (hsite : s.classes.Knows site)
    (hv : onTable (ClassTable.resolve ty site) v = .ok answer v') :
    ∃ s', onTable (ClassTable.resolve ty site) s = .ok answer s' ∧ Kin r s' v' := by
  obtain ⟨t, ht, rfl⟩ := onTable_eq_ok hv
  obtain ⟨t', ht', -⟩ := h.table.resolve hty hsite ht
  have hs : onTable (ClassTable.resolve ty site) s = .ok answer { s with classes := t' } := by
    rw [onTable_apply, ht']
  obtain ⟨hsv, hsg, -⟩ := (resolve_keeps ty site).of_ok h.leftValid hs
  obtain ⟨hvv, hvg, -⟩ := (resolve_keeps ty site).of_ok h.rightValid hv
  exact ⟨_, hs, h.step hsg hsv hvg hvv⟩

/-! ## Keys -/

theorem codec (h : Kin r s v) {c d : Class} (htwin : c.Twin d) :
    s.codecs.find? c = v.codecs.find? d := by
  rw [h.left.codecs, h.right.codecs]
  rcases htwin.same with rfl | ⟨⟨a, rfl⟩, b, rfl⟩
  · rfl
  · unfold CodecTable.find?
    rw [htwin.id]
    rfl

theorem isArray_of_twin {c d : Class} (htwin : c.Twin d) : c.isArray = d.isArray := by
  rcases htwin.same with rfl | ⟨⟨a, rfl⟩, b, rfl⟩
  · rfl
  · rfl

/-- Both look for the model of a class under the same key. -/
theorem keyFor (h : Kin r s v) {raw : ClassId} {c d : Class} (hc : s.classes.find? raw = some c)
    (hd : v.classes.find? raw = some d) (args : List TypeExpr) :
    s.keyFor c raw args = v.keyFor d raw args := by
  have htwin := h.table.twin hc hd
  have hassign := h.table.isAssignable (contains_iff.2 ⟨c, hc⟩) (contains_iff.2 ⟨d, hd⟩)
  unfold Registry.keyFor Registry.kindOf
  rw [h.codec htwin, find?_id hc, find?_id hd, hassign, hassign, isArray_of_twin htwin]

/-- Models of one key are both atomic, or neither is. -/
theorem isAtomic (h : Kin r s v) (hr : r.Valid) {m n : Model} (hm : m ∈ s.models)
    (hn : n ∈ v.models) (hkey : m.key = n.key) : m.isAtomic = n.isAtomic := by
  have hmc := (h.leftValid.entry m hm).cls
  have hnc := (h.rightValid.entry n hn).cls
  rw [hkey] at hmc
  have htwin := h.table.twin hmc hnc
  have hcodec : m.codec = n.codec := by
    rcases h.left.codec hm with hmr | hm'
    · rw [eq_of_key hr h.rightValid h.right.models hmr hn hkey]
    · rcases h.right.codec hn with hnr | hn'
      · rw [eq_of_key hr h.leftValid h.left.models hnr hm hkey.symm]
      · have hsame := h.codec htwin
        rw [h.left.codecs, h.right.codecs] at hsame
        rw [hm', hn', hsame]
  unfold Model.isAtomic
  rw [hcodec, isArray_of_twin htwin]

/-! ## Search -/

/-- A search that answers in the one registry answers in the other, a model of the same key. -/
theorem modelWithin (h : Kin r s v) {n : Nat} {ty : TypeExpr} {m : Model} {v' : Registry}
    (hty : Resolved (depthLimit + 1) ty) (hs : s.classes.Knows ty) (hv : v.classes.Knows ty)
    (hm : Registry.modelWithin n ty v = .ok m v') :
    ∃ m' s', Registry.modelWithin n ty s = .ok m' s' ∧ Kin r s' v' ∧ m' ∈ s'.models ∧
      m ∈ v'.models ∧ m'.key = m.key := by
  induction n generalizing ty s v with
  | zero => cases hm
  | succ n ih =>
    obtain ⟨raw, args, d, hp, hd, hgo⟩ := modelWithin_succ_eq_ok hm
    obtain ⟨c, hc, htwin⟩ :=
      h.table.lookup (hs raw (mem_ids_of_raw (raw?_of_parts? hp))) hd
    rw [modelWithin_apply]
    simp only [hp, hc]
    rcases hgo with ⟨superclass, hd', hgo⟩ | ⟨hd', hgo⟩
    · obtain rfl : c = d := by
        rcases htwin.same with heq | ⟨-, b, rfl⟩
        · exact heq
        · cases hd'
      obtain ⟨answer, v₁, hv₁, hgo'⟩ := bind_eq_ok_iff.1 hgo
      have hsuper := Class.mentions_supertype (Class.redirect?_supertype hd')
      have hss := h.table.sealed_left.closed raw c (lookup_eq_ok_iff.1 hc) superclass hsuper
      have hsv := h.table.sealed_right.closed raw c (lookup_eq_ok_iff.1 hd) superclass hsuper
      obtain ⟨s₁, hs₁, hkin⟩ := h.resolve hss hs hv₁
      obtain ⟨-, -, hres⟩ := (resolve_keeps superclass ty).of_ok h.rightValid hv₁
      obtain ⟨t, ht, rfl⟩ := onTable_eq_ok hs₁
      obtain ⟨t', ht', rfl⟩ := onTable_eq_ok hv₁
      obtain ⟨m', s', hm', hrest⟩ := ih hkin hres (h.table.sealed_left.resolved hss hs ht)
        (h.table.sealed_right.resolved hsv hv ht') hgo'
      simp only [hd']
      exact ⟨m', s', by rw [redirected, bind_of_ok hs₁, hm'], hrest⟩
    · have hc' : c.redirect? = none := by
        rcases htwin.same with rfl | ⟨⟨a, rfl⟩, -⟩
        · exact hd'
        · rfl
      have hcf := lookup_eq_ok_iff.1 hc
      have hdf := lookup_eq_ok_iff.1 hd
      obtain ⟨m', s', hm'⟩ := cachedModel_answers ty c raw args s
      obtain ⟨hsv, hsg, hin'⟩ := (cachedModel_keeps hp hty hcf hc').of_ok h.leftValid hm'
      obtain ⟨hvv, hvg, hin⟩ := (cachedModel_keeps hp hty hdf hd').of_ok h.rightValid hgo
      simp only [hc']
      refine ⟨m', s', hm', h.step hsg hsv hvg hvv, hin', hin, ?_⟩
      rw [cachedModel_key hm', cachedModel_key hgo, h.keyFor hcf hdf]

/-- The models that a type has in both registries have one key. -/
theorem key_eq (h : Kin r s v) {ty : TypeExpr} {m n : Model} {s' v' : Registry}
    (hty : Resolved (depthLimit + 1) ty) (hs : s.classes.Knows ty) (hv : v.classes.Knows ty)
    (hm : Registry.modelFor ty s = .ok m s') (hn : Registry.modelFor ty v = .ok n v') : m.key = n.key := by
  obtain ⟨m', s'', hm', -, -, -, hkey⟩ := h.modelWithin hty hs hv hn
  cases hm.symm.trans hm'
  exact hkey

/-- The model of a type is found in both registries, and is atomic in both or in none. -/
theorem modelFor (h : Kin r s v) (hr : r.Valid) {ty : TypeExpr} {m : Model} {v' : Registry}
    (hty : Resolved (depthLimit + 1) ty) (hs : s.classes.Knows ty) (hv : v.classes.Knows ty)
    (hm : Registry.modelFor ty v = .ok m v') :
    ∃ m' s', Registry.modelFor ty s = .ok m' s' ∧ m'.isAtomic = m.isAtomic := by
  obtain ⟨m', s', hm', hkin, hin', hin, hkey⟩ := h.modelWithin hty hs hv hm
  exact ⟨m', s', hm', hkin.isAtomic hr hin' hin hkey⟩

end Kin

/-- Over a closed table a search that was answered is answered the same from then on. -/
theorem modelFor_again {w q : Registry} (hsealed : r.classes.Sealed) (hr : r.Valid) {ty : TypeExpr}
    {m : Model} (hty : Resolved (depthLimit + 1) ty) (hm : modelFor ty r = .ok m w)
    (hq : w.Grown q) : modelFor ty q = .ok m q := by
  obtain ⟨hw, hg, hin⟩ := (modelFor_keeps hty).of_ok hr hm
  have hanchored : ∀ x, r.Grown x → x.classes.Within q.classes → Anchored q.classes x.classes :=
    fun x hx => (hsealed.extend hx.classes).anchored
  have hfound : q.findModel? m.key = some m := findModel?_of_prefix hq.models (hw.cached m hin)
  refine modelWithin_again hr hty hm hq.within hfound fun x c args hx hxw hc => ?_
  have hxq : x.classes.Within q.classes := (hxw.trans hq).within
  have hin : x.classes.contains c.id = true := contains_of_lookup hc
  unfold keyFor
  rw [(hg.trans hq).codecs, hx.codecs,
    kindOf_agrees (hanchored q (hg.trans hq) (Within.refl _)) (hanchored x hx hxq)
      (hxq.contains hin) hin]

end Introspect.Registry
