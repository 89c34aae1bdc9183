import Introspect.Proofs.Models.Redirection

/-!
The identity of models: a lookup that has answered goes on to answer the same model.

A later lookup of the type ends at the same class with the same arguments. Whether it looks for the same model
there is decided anew: a model that was found without the arguments is not found again once its class is a
list or a map. A model is found by its own type whatever its class becomes.

* `Lookup`, `Lookup.again`, `Lookup.other`: the place where a lookup ended, and the same place later on.
* `lookup_identity`: the model of the type and of the model's own type, after any operations.
* `lookup_outgrown`: a model that initializes its class into a list.
-/

namespace Introspect

open Relation

namespace Registry

open ClassTable TypeExpr

/-- The type of a cached model leads to it, when its class still leads to its key. -/
theorem modelFor_type {r : Registry} {m : Model} (hv : r.Valid) (hm : m ∈ r.models)
    (hkey : r.keyFor m.cls m.raw m.key.args = m.key) : modelFor m.type r = .ok m r := by
  have he := hv.entry m hm
  rw [modelFor_direct he.parts (lookup_eq_ok_iff.2 he.cls) he.direct]
  refine cachedModel_of_found ?_
  show r.findModel? (r.keyFor m.cls m.raw m.key.args) = some m
  rw [hkey]
  exact hv.cached m hm

/-! ## Lookups -/

/-- A lookup answered the model and left `r'`. It had come to the class `c` with the arguments `args` in `s`, and
looked there for the key of the model; so does any later lookup of the type. -/
structure Lookup (ty : TypeExpr) (m : Model) (c : Class) (args : List TypeExpr) (r s r' : Registry) :
    Prop where
  ends : r.EndsAt ty m.raw args
  before : r.Grown s
  cls : s.classes.find? m.raw = some c
  key : m.key = s.keyFor c m.raw args
  within : s.classes.Within r'.classes
  codecs : r'.codecs = s.codecs
  valid : r'.Valid
  cached : m ∈ r'.models
  initialized : ∃ k, r'.contents? m = some k
  later : ∀ v : Registry, r'.classes.Within v.classes →
    ∃ concrete last, ClassTable.resolve ty ty v.classes = .ok concrete v.classes ∧
      modelFor concrete v = cachedModel last c m.raw args v

theorem ofType_lookup {ty : TypeExpr} {r r' : Registry} {m : Model} (hv : r.Valid)
    (h : ofType ty r = .ok m r') : ∃ c args s, Lookup ty m c args r s r' := by
  obtain ⟨concrete, k, start, found, hanswered⟩ := ofType_answered hv h
  obtain ⟨s, last, args, c, hway, hlast, hc, hdirect, hkey, hgf, hlater⟩ :=
    modelFor_endsAt hanswered.valid hanswered.resolved hanswered.model
  obtain ⟨-, hgs⟩ := way_grown hway hanswered.valid
  have hsr : s.classes.Within r'.classes := Within.trans _ _ _ hgf.within hanswered.step.classes
  exact ⟨c, args, s,
    { ends := ⟨concrete, start, s, last, c, hanswered.asked, hway, hlast, hc, hdirect⟩
      before := hanswered.started.trans hgs
      cls := hc
      key := hkey
      within := hsr
      codecs := (hanswered.step.calm rfl).codecs.trans hgf.codecs
      valid := hanswered.step.valid
      cached := hanswered.step.there m rfl
      initialized := ⟨k, hanswered.contents⟩
      later := fun v hrv => ⟨concrete, last,
        resolve_replays ty ty _ _ _ _ hanswered.answer
          (Within.trans _ _ _ (hgs.trans hgf).within (Within.trans _ _ _ hanswered.step.classes hrv)),
        hlater v (Within.trans _ _ _ hsr hrv)⟩ }⟩

namespace Lookup

variable {ty : TypeExpr} {m : Model} {c : Class} {args : List TypeExpr} {r s r' v : Registry}

theorem codec_later (h : Lookup ty m c args r s r')
    (hcodec : v.codecs.registered.find? m.raw = r'.codecs.registered.find? m.raw) :
    v.codecs.find? c = s.codecs.find? c := by
  refine codec_congr ?_
  rw [find?_id h.cls, hcodec, h.codecs]

/-- Later on another key is looked for just when the model's key lacks the arguments and its class has become a
list or a map. -/
theorem keyFor_iff (h : Lookup ty m c args r s r') (hlater : r'.Later v)
    (hcodec : v.codecs.registered.find? m.raw = r'.codecs.registered.find? m.raw) :
    v.keyFor c m.raw args = m.key ↔ ¬ (m.key.args ≠ args ∧ v.classes.IsCollection m.raw) := by
  have hiff := keyFor_eq_iff (Within.trans _ _ _ h.within hlater.classes) (h.codec_later hcodec) m.raw args
  rwa [← h.key, find?_id h.cls] at hiff

/-- Where the same key is looked for, the lookup is answered the same way and changes nothing. -/
theorem again (h : Lookup ty m c args r s r') (hv : v.Valid) (hlater : r'.Later v)
    (hkey : v.keyFor c m.raw args = m.key) : ofType ty v = .ok m v := by
  obtain ⟨k, hk⟩ := h.initialized
  obtain ⟨concrete, last, hresolve, hsearch⟩ := h.later v hlater.classes
  have hfound : v.findModel? (v.keyFor c m.raw args) = some m := by
    rw [hkey]
    exact hv.cached m (hlater.models.subset h.cached)
  exact ofType_of_stages hresolve (hsearch.trans (cachedModel_of_found hfound)) (hlater.kept _ _ hk)

/-- Where another key is looked for, another model is found, if any. -/
theorem other (h : Lookup ty m c args r s r') (hlater : r'.Later v) (hkey : v.keyFor c m.raw args ≠ m.key)
    {n : Model} {v' : Registry} (hn : ofType ty v = .ok n v') : n ≠ m := by
  rintro rfl
  obtain ⟨concrete, last, hresolve, hsearch⟩ := h.later v hlater.classes
  obtain ⟨w, -, hof, -⟩ := ofType_stages hn
  rw [modelOf_of_unchanged hresolve, hsearch] at hof
  exact hkey (cachedModel_key hof).symm

/-- The model's own type leads to the model. -/
theorem again_type (h : Lookup ty m c args r s r') (hv : v.Valid) (hlater : r'.Later v)
    (hcodec : v.codecs.registered.find? m.raw = r'.codecs.registered.find? m.raw) :
    ofType m.type v = .ok m v := by
  obtain ⟨k, hk⟩ := h.initialized
  have hm : m ∈ v.models := hlater.models.subset h.cached
  have he := hv.entry m hm
  have hwithin : s.classes.Within v.classes := Within.trans _ _ _ h.within hlater.classes
  have hcls : m.cls = c := Option.some.inj (he.cls.symm.trans (hwithin _ _ h.cls))
  have hkey : v.keyFor m.cls m.raw m.key.args = m.key := by
    rw [hcls, h.key]
    exact keyFor_args hwithin (h.codec_later hcodec) m.raw args
  exact ofType_of_stages (resolveAt_of_resolved he.resolved _ _) (modelFor_type hv hm hkey)
    (hlater.kept _ _ hk)

/-- A class whose supertypes were all declared before the lookup is not found without its arguments if it is a
list or a map later on. -/
theorem key_of_declared (h : Lookup ty m c args r s r') {cs : List Class}
    (hcs : r'.classes.supertypes m.raw = .ok cs)
    (hdeclared : ∀ d ∈ cs, d.id = m.raw ∨ r.classes.contains d.id = true)
    (hnow : r'.classes.IsCollection m.raw) : m.key.args = args := by
  have hthen : s.classes.supertypes m.raw = .ok cs := by
    refine supertypes_of_known h.within hcs fun d hd => ?_
    rcases hdeclared d hd with heq | hin
    · rw [heq]
      exact contains_iff.2 ⟨c, h.cls⟩
    · exact h.before.within.contains hin
  have hthen : s.classes.IsCollection c.id := by
    rw [find?_id h.cls]
    exact (isCollection_of_complete h.within hthen).1 hnow
  rw [h.key, keyFor_of_collection hthen]

end Lookup

/-- What stays in every run that goes on from a lookup. -/
theorem reached_later {config : Config} {before : List Operation} {ty : TypeExpr} {m : Model}
    {r : Registry} (hm : ofType ty (reached config before).registry = .ok m r) (hr : r.Valid)
    (later : List Operation) :
    let s := (reached config (before ++ .ofType ty :: later)).registry
    s.Valid ∧ r.Later s ∧ ((∀ op ∈ later, op.coded ≠ some m.raw) →
      s.codecs.registered.find? m.raw = r.codecs.registered.find? m.raw) := by
  intro s
  let t := (Operation.ofType ty).perform (reached config before)
  have ht : t.registry = r := (perform_ofType ty _).trans (after_of_ok hm)
  have hs : s = (t.run later).registry := congrArg Store.registry (reached_through config before later _)
  rw [← ht] at hr ⊢
  rw [hs]
  obtain ⟨hvs, hlater⟩ := run_later hr later
  exact ⟨hvs, hlater, run_codec hr⟩

end Registry

open Registry

/-- A lookup answered a model, and no codec is registered for the model's class later on. Whatever else is
done then, a lookup of the model's own type answers that very model and changes nothing. So does a lookup of
the type that was asked for, unless the model was found without the type arguments and its class has become a
list or a map since: then no lookup of the type answers that model again. If all supertypes of the class were
declared when the lookup returned, what the class is does not change any more, and if they were declared
before, the type keeps the model. -/
theorem lookup_identity {config : Config} {before later : List Operation} {ty : TypeExpr}
    {m : Model} {r : Registry} (hm : Registry.ofType ty (reached config before).registry = .ok m r)
    (hcodec : ∀ op ∈ later, op.coded ≠ some m.raw) :
    let s := (reached config (before ++ .ofType ty :: later)).registry
    Registry.ofType m.type s = .ok m s ∧
      ∃ args, (reached config before).registry.EndsAt ty m.raw args ∧
        (¬ (m.key.args ≠ args ∧ s.classes.IsCollection m.raw) → Registry.ofType ty s = .ok m s) ∧
        (m.key.args ≠ args ∧ s.classes.IsCollection m.raw →
          ∀ n s', Registry.ofType ty s = .ok n s' → n ≠ m) ∧
        ∀ cs, r.classes.supertypes m.raw = .ok cs →
          (s.classes.IsCollection m.raw ↔ r.classes.IsCollection m.raw) ∧
          ((∀ c ∈ cs, c.id = m.raw ∨ (reached config before).registry.classes.contains c.id = true) →
            Registry.ofType ty s = .ok m s) := by
  intro s
  obtain ⟨c, args, w, h⟩ := ofType_lookup (reached_valid config before) hm
  obtain ⟨hv, hlater, hcodecs⟩ := reached_later hm h.valid later
  have hiff := h.keyFor_iff hlater (hcodecs hcodec)
  refine ⟨h.again_type hv hlater (hcodecs hcodec), args, h.ends, fun hno => h.again hv hlater (hiff.2 hno),
    fun hyes n s' => h.other hlater fun hkey => hiff.1 hkey hyes, fun cs hcs => ?_⟩
  have hsame := ClassTable.isCollection_of_complete hlater.classes hcs
  exact ⟨hsame, fun hdeclared => h.again hv hlater
    (hiff.2 fun hyes => hyes.1 (h.key_of_declared hcs hdeclared (hsame.1 hyes.2)))⟩

/-- A list of its own class, whose supertypes were declared, while a codec of another class and a class are
added. -/
theorem lookup_identity_shelf :
    let shelf : Class :=
      { Class.bare ⟨"Shelf"⟩ .plain with
        typeParams := [⟨"E", []⟩], interfaces := [.listOf (.var ⟨"Shelf"⟩ "E")] }
    let texts : TypeExpr := .apply ⟨"Shelf"⟩ [.named .string]
    let later : List Operation := [.registerCodec .string .text, .define (.bare ⟨"Names"⟩ .plain)]
    let s := (reached {} ([.define shelf] ++ .ofType texts :: later)).registry
    ∃ m, m.raw = ⟨"Shelf"⟩ ∧ s.classes.IsCollection m.raw ∧
      Registry.ofType texts s = .ok m s ∧ Registry.ofType m.type s = .ok m s := by
  intro shelf texts later s
  have hlook : outcome (do
      let declared := (← get).classes
      let m ← Registry.ofType texts
      let cs ← ofExcept ((← get).classes.supertypes ⟨"Shelf"⟩)
      return (decide (m.raw = ⟨"Shelf"⟩), cs.all fun c => declared.contains c.id))
      (reached {} [.define shelf]).registry = .ok (true, true) := by decide +kernel
  obtain ⟨_, _, hget, h₁⟩ := bind_eq_ok_iff.1 (eq_ok_of_outcome hlook)
  cases hget
  obtain ⟨m, r, hm, h₂⟩ := bind_eq_ok_iff.1 h₁
  obtain ⟨_, _, hget, h₃⟩ := bind_eq_ok_iff.1 h₂
  cases hget
  obtain ⟨cs, _, hcs, hpure⟩ := bind_eq_ok_iff.1 h₃
  obtain ⟨hcs, rfl⟩ := ofExcept_eq_ok_iff.1 hcs
  obtain ⟨hraw, hdeclared⟩ := Prod.mk.inj (EStateM.Result.ok.inj hpure).1
  have hraw : m.raw = ⟨"Shelf"⟩ := of_decide_eq_true hraw
  have hcodec : ∀ op ∈ later, op.coded ≠ some m.raw := by
    intro op hop
    rw [hraw]
    rcases List.mem_cons.1 hop with rfl | hop
    · exact fun h => absurd (Option.some.inj h) (by decide)
    · cases List.mem_singleton.1 hop
      exact nofun
  obtain ⟨htype, args, -, -, -, hcomplete⟩ := lookup_identity hm hcodec
  have hlist : s.classes.isAssignable .list ⟨"Shelf"⟩ = true := by decide +kernel
  exact ⟨m, hraw, hraw ▸ .inl hlist,
    (hcomplete cs (hraw ▸ hcs)).2 fun c hc => .inr (List.all_eq_true.1 hdeclared c hc), htype⟩

/-- An array class that is declared to be a list too, below an array class that only its own initialization
makes: the first lookup finds its model as one of an array, without the type argument. When it returns all
supertypes are declared, and the next lookup finds a list. -/
theorem lookup_outgrown :
    let shelf : Class :=
      { Class.bare ⟨"Shelf"⟩ (.array (.array (.named .string))) with
        interfaces := [.named ⟨"String[]"⟩, .listOf (.named .string)] }
    let texts : TypeExpr := .apply ⟨"Shelf"⟩ [.named .string]
    let r := (reached {} [.define shelf]).registry
    let s := (reached {} ([.define shelf] ++ .ofType texts :: [])).registry
    ∃ m cs n s', Registry.ofType texts r = .ok m s ∧ s.classes.supertypes m.raw = .ok cs ∧
      Registry.ofType texts s = .ok n s' ∧ m.kind = .array ∧ n.kind = .list ∧ n ≠ m := by
  intro shelf texts r s
  have hlook : outcome (do
      let m ← Registry.ofType texts
      let cs ← ofExcept ((← get).classes.supertypes m.raw)
      let n ← Registry.ofType texts
      return decide (m.kind = .array ∧ n.kind = .list)) r = .ok true := by decide +kernel
  obtain ⟨m, s₁, hm, h₁⟩ := bind_eq_ok_iff.1 (eq_ok_of_outcome hlook)
  obtain ⟨_, _, hget, h₂⟩ := bind_eq_ok_iff.1 h₁
  cases hget
  obtain ⟨cs, s₂, hcs, h₃⟩ := bind_eq_ok_iff.1 h₂
  obtain ⟨hcs, rfl⟩ := ofExcept_eq_ok_iff.1 hcs
  obtain ⟨n, s', hn, hpure⟩ := bind_eq_ok_iff.1 h₃
  obtain ⟨harray, hlist⟩ := of_decide_eq_true (EStateM.Result.ok.inj hpure).1
  have hs : s = _ := reached_ofType hm
  rw [← hs] at hm hcs hn
  refine ⟨m, cs, n, s', hm, hcs, hn, harray, hlist, fun hsame => ?_⟩
  rw [hsame, harray] at hlist
  cases hlist

end Introspect
