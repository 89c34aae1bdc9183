import Introspect.Proofs.Classes.Assignability
import Introspect.Proofs.Models.Runs

/-!
Keys of models: what a lookup decides them by, and how long they stay.

The key of a lookup is decided anew every time, by a table and codecs that have changed meanwhile.

* `keyFor_eq_iff`, `keyFor_args`: when a class is looked for with the same key later on.
* `modelWithin_again`: the search goes the same way in a later registry.
* `Answered`: the stages of a lookup that answered.
-/

namespace Introspect

open ClassTable TypeExpr

/-- The class is a list or a map, by the supertypes that the table has. -/
def ClassTable.IsCollection (t : ClassTable) (id : ClassId) : Prop :=
  t.isAssignable .list id = true ∨ t.isAssignable .map id = true

theorem ClassTable.isCollection_of_complete {t u : ClassTable} (htu : t.Within u) {id : ClassId} {cs : List Class}
    (h : t.supertypes id = .ok cs) : u.IsCollection id ↔ t.IsCollection id := by
  unfold IsCollection
  rw [isAssignable_of_complete htu h, isAssignable_of_complete htu h]

namespace Registry

/-! ## Keys -/

theorem codec_congr {codecs codecs' : CodecTable} {c : Class}
    (h : codecs'.registered.find? c.id = codecs.registered.find? c.id) :
    codecs'.find? c = codecs.find? c := by
  unfold CodecTable.find?
  rw [h]

/-- The arguments of a key lead to the same key. -/
theorem keyFor_keyFor (r : Registry) (c : Class) (raw : ClassId) (args : List TypeExpr) :
    r.keyFor c raw (r.keyFor c raw args).args = r.keyFor c raw args := by
  have hkind := kindOf_key_args r c (r.codecs.find? c) raw args
  unfold keyFor
  rw [hkind]
  cases h : (r.kindOf c (r.codecs.find? c) args).hasArguments <;> simp [keyOf, h]

theorem cachedModel_key {concrete : TypeExpr} {c : Class} {raw : ClassId} {args : List TypeExpr}
    {r r' : Registry} {m : Model} (h : cachedModel concrete c raw args r = .ok m r') :
    m.key = r.keyFor c raw args := by
  rw [cachedModel_apply] at h
  cases hm : r.findModel? (r.keyFor c raw args) with
  | some n => rw [hm] at h; cases h; exact findModel?_key hm
  | none => rw [hm] at h; cases h; rfl

/-- A search finds a model of the class that it ends at. -/
theorem cachedModel_raw {concrete : TypeExpr} {c : Class} {raw : ClassId} {args : List TypeExpr}
    {r r' : Registry} {m : Model} (h : cachedModel concrete c raw args r = .ok m r') : m.raw = raw :=
  congrArg ModelKey.raw (cachedModel_key h)

theorem cachedModel_of_found {concrete : TypeExpr} {c : Class} {raw : ClassId}
    {args : List TypeExpr} {r : Registry} {m : Model}
    (h : r.findModel? (r.keyFor c raw args) = some m) :
    cachedModel concrete c raw args r = .ok m r := by
  rw [cachedModel_apply, h]

theorem kindOf_congr {r v : Registry} {c : Class}
    (hlist : v.classes.isAssignable .list c.id = r.classes.isAssignable .list c.id)
    (hmap : v.classes.isAssignable .map c.id = r.classes.isAssignable .map c.id)
    (codec : Option Codec) (args : List TypeExpr) : v.kindOf c codec args = r.kindOf c codec args := by
  unfold kindOf
  rw [hlist, hmap]

/-- The model of a list or a map is looked for with all arguments. -/
theorem keyFor_of_collection {r : Registry} {c : Class} (h : r.classes.IsCollection c.id)
    (raw : ClassId) (args : List TypeExpr) : r.keyFor c raw args = ⟨raw, args⟩ := by
  have hkind : (r.kindOf c (r.codecs.find? c) args).hasArguments = true := by
    unfold kindOf
    by_cases hlist : r.classes.isAssignable .list c.id = true
    · rw [if_pos hlist]
      rfl
    · rw [if_neg hlist, if_pos (h.resolve_left hlist)]
      rfl
  rw [keyFor, keyOf, if_pos hkind]

/-- Later on a class with arguments is looked for with another key just when it was looked for without the
arguments, and has become a list or a map. -/
theorem keyFor_eq_iff {r v : Registry} {c : Class} (hrv : r.classes.Within v.classes)
    (hcodec : v.codecs.find? c = r.codecs.find? c) (raw : ClassId) (args : List TypeExpr) :
    v.keyFor c raw args = r.keyFor c raw args ↔
      ¬ ((r.keyFor c raw args).args ≠ args ∧ v.classes.IsCollection c.id) := by
  by_cases hnow : v.classes.IsCollection c.id
  · rw [keyFor_of_collection hnow]
    constructor
    · rintro heq ⟨hargs, -⟩
      exact hargs (by rw [← heq])
    · intro hno
      have hargs : (r.keyFor c raw args).args = args := by
        by_contra hne
        exact hno ⟨hne, hnow⟩
      show ModelKey.mk raw args = ModelKey.mk raw (r.keyFor c raw args).args
      rw [hargs]
  · refine iff_of_true ?_ fun h => hnow h.2
    obtain ⟨hlist, hmap⟩ := not_or.1 hnow
    have same : ∀ target, v.classes.isAssignable target c.id ≠ true →
        v.classes.isAssignable target c.id = r.classes.isAssignable target c.id := by
      intro target hno
      rw [Bool.eq_false_iff.2 hno, eq_comm, Bool.eq_false_iff]
      exact fun h => hno (hrv.isAssignable h)
    unfold keyFor
    rw [hcodec, kindOf_congr (same .list hlist) (same .map hmap)]

/-- With the arguments of a key the same key is looked for later on. -/
theorem keyFor_args {r v : Registry} {c : Class} (hrv : r.classes.Within v.classes)
    (hcodec : v.codecs.find? c = r.codecs.find? c) (raw : ClassId) (args : List TypeExpr) :
    v.keyFor c raw (r.keyFor c raw args).args = r.keyFor c raw args := by
  have hkey := keyFor_keyFor r c raw args
  rw [(keyFor_eq_iff hrv hcodec raw _).2 fun h => h.1 (congrArg ModelKey.args hkey), hkey]

/-! ## Search -/

theorem onTable_of_unchanged {α : Type} {x : TableM α} {r : Registry} {a : α}
    (h : x r.classes = .ok a r.classes) : onTable x r = .ok a r := by
  rw [onTable_apply, h]

/-- In a later registry the search goes the same way, when there the class of the model leads to the same
key; it ends at the same model and changes nothing. -/
theorem modelWithin_again {n : Nat} {ty : TypeExpr} {r r' u : Registry} {m : Model}
    (hv : r.Valid) (hty : Resolved (depthLimit + 1) ty) (h : modelWithin n ty r = .ok m r')
    (hu : r'.classes.Within u.classes) (hm : u.findModel? m.key = some m)
    (hkey : ∀ s c args, r.Grown s → s.Grown r' → s.classes.lookup m.raw = .ok c →
      u.keyFor c m.raw args = s.keyFor c m.raw args) :
    modelWithin n ty u = .ok m u := by
  induction n generalizing ty r with
  | zero => cases h
  | succ n ih =>
    obtain ⟨raw, args, c, hp, hc, hgo⟩ := modelWithin_succ_eq_ok h
    have hgrown : r.Grown r' := by
      have := (modelWithin_keeps (n + 1) hty r (Grown.refl r) hv).2.1
      rwa [after_of_ok h] at this
    have hru : r.classes.Within u.classes := Within.trans _ _ _ hgrown.within hu
    rw [modelWithin_apply]
    simp only [hp, hru.lookup hc]
    rcases hgo with ⟨superclass, hs, hgo⟩ | ⟨hd, hgo⟩
    · obtain ⟨resolved, s, hr, hgo⟩ := bind_eq_ok_iff.1 hgo
      obtain ⟨hvs, hgs, hrs⟩ := resolve_keeps superclass ty r (Grown.refl r) hv
      rw [after_of_ok hr] at hvs hgs
      have hres := hrs resolved s hr
      have hsr : s.Grown r' := by
        have := (modelWithin_keeps n hres s (Grown.refl s) hvs).2.1
        rwa [after_of_ok hgo] at this
      obtain ⟨t, ht, rfl⟩ := onTable_eq_ok hr
      -- the superclass resolves as before, so that the search goes on from the same type
      have hagain : onTable (ClassTable.resolve superclass ty) u = .ok resolved u :=
        onTable_of_unchanged (resolve_replays superclass ty _ _ _ _ ht
          (Within.trans _ _ _ hsr.within hu))
      simp only [hs]
      unfold redirected
      rw [bind_of_ok hagain]
      exact ih hvs hres hgo fun s' c' args' hs' => hkey s' c' args' (hgs.trans hs')
    · have hk : m.key = r.keyFor c raw args := cachedModel_key hgo
      simp only [hd]
      obtain rfl := cachedModel_raw hgo
      refine cachedModel_of_found ?_
      rw [hkey r c args (Grown.refl r) hgrown hc, ← hk]
      exact hm

/-! ## Lookup -/

/-- The stages of a lookup that answers: the type resolves, a model is found for it, and the model has
its contents in the end. -/
structure Answered (ty concrete : TypeExpr) (m : Model) (c : Contents)
    (r start found r' : Registry) : Prop where
  asked : onTable (ClassTable.resolve ty ty) r = .ok concrete start
  started : r.Grown start
  valid : start.Valid
  resolved : Resolved (depthLimit + 1) concrete
  model : modelFor concrete start = .ok m found
  grown : start.Grown found
  contents : r'.contents? m = some c
  step : Step (some m) none found r'

theorem ofType_answered {ty : TypeExpr} {r r' : Registry} {m : Model} (hv : r.Valid)
    (h : ofType ty r = .ok m r') :
    ∃ concrete c start found, Answered ty concrete m c r start found r' := by
  obtain ⟨found, c, hm, hget⟩ := ofType_stages h
  obtain ⟨concrete, start, hr, hfor⟩ := bind_eq_ok_iff.1 hm
  obtain ⟨hvs, hgs, hres⟩ := resolve_keeps ty ty r (Grown.refl r) hv
  rw [after_of_ok hr] at hvs hgs
  have hconcrete := hres concrete start hr
  obtain ⟨hvf, hgf, hin⟩ := modelFor_keeps hconcrete start (Grown.refl start) hvs
  rw [after_of_ok hfor] at hvf hgf
  have hstep := Model.getContents_step hvf (hin m found hfor)
  rw [after_of_ok hget] at hstep
  exact ⟨concrete, c, _, found, hr, hgs, hvs, hconcrete, hfor, hgf, Model.getContents_ok hget, hstep⟩

theorem Answered.answer {ty concrete : TypeExpr} {m : Model} {c : Contents} {r start found r' : Registry}
    (h : Answered ty concrete m c r start found r') :
    ClassTable.resolve ty ty r.classes = .ok concrete start.classes := by
  obtain ⟨t, ht, rfl⟩ := onTable_eq_ok h.asked
  exact ht

/-- Where the type has been resolved before, the search begins at once. -/
theorem modelOf_of_unchanged {ty concrete : TypeExpr} {r : Registry}
    (hr : ClassTable.resolve ty ty r.classes = .ok concrete r.classes) : modelOf ty r = modelFor concrete r := by
  unfold modelOf
  exact bind_of_ok (onTable_of_unchanged hr)

/-- A lookup whose stages change nothing. -/
theorem ofType_of_stages {ty concrete : TypeExpr} {r : Registry} {m : Model} {c : Contents}
    (hr : ClassTable.resolve ty ty r.classes = .ok concrete r.classes)
    (hm : modelFor concrete r = .ok m r) (hc : r.contents? m = some c) :
    ofType ty r = .ok m r := by
  rw [ofType_of_ok ((modelOf_of_unchanged hr).trans hm), Model.getContents_of_initialized hc]

end Registry
end Introspect
