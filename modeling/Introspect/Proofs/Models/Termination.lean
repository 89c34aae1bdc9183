import Introspect.Proofs.Models.Endless
import Introspect.Proofs.Models.Scan

/-!
Every lookup ends, unless classes lead into a circle.

A lookup resolves a type, searches its model and builds the contents of the model. Of these the search alone
is redirected, and the scan of fields alone follows superclasses; all the rest ends.

* `EndsUnless`: a computation that ends unless something holds, with a rule for each way to combine such.
* `ofType_endless`, `ofType_of_looping`: a lookup has no end for these two reasons only.
* `ends_unless_looping`: instantiation and lookups in every registry; `looping_walks`: circles of either kind.
-/

namespace Introspect

open Registry ClassTable Relation

namespace Registry

/-! ## Computations that end unless something holds -/

section Unless

variable {α β : Type} {C : Prop} {t : ClassTable}

/-- From tables that extend `t` the computation extends the table further, and it has an end unless `C`. -/
def EndsUnless (C : Prop) (t : ClassTable) (x : RegistryM α) : Prop :=
  ∀ r, t.Extends r.classes → r.classes.Extends (after x r).classes ∧ (Endless x r → C)

theorem EndsUnless.of_ends {x : RegistryM α}
    (hm : ∀ r : Registry, r.classes.Extends (after x r).classes) (hx : ∀ r, ¬ Endless x r) :
    EndsUnless C t x :=
  fun r _ => ⟨hm r, fun h => absurd h (hx r)⟩

theorem EndsUnless.pure (a : α) : EndsUnless C t (pure a) :=
  .of_ends (fun _ => Extends.refl _) fun _ => not_endless_of_ok rfl

theorem EndsUnless.throw {e : Error} (he : e.isEndless = false) :
    EndsUnless C t (throw e : RegistryM α) := by
  refine .of_ends (fun _ => Extends.refl _) fun r hend => ?_
  have happly : (MonadExcept.throw e : RegistryM α) r = EStateM.Result.error e r := rfl
  rw [endless_of_error happly, he] at hend
  cases hend

theorem EndsUnless.ofExcept {x : Except Error α} (hx : ∀ e, x = .error e → e.isEndless = true → C) :
    EndsUnless C t (ofExcept x) := by
  refine fun r _ => ⟨Moves.ofExcept (R := fun r r' : Registry => r.classes.Extends r'.classes)
    (fun _ => Extends.refl _) x r, fun hend => ?_⟩
  obtain ⟨e, he, hend⟩ := endless_ofExcept_iff.1 hend
  exact hx e he hend

theorem EndsUnless.log (level : LogLevel) (text : String) : EndsUnless C t (log level text) :=
  .of_ends (fun _ => Extends.refl _) fun _ => not_endless_of_ok rfl

theorem EndsUnless.bind {x : RegistryM α} {f : α → RegistryM β} (hx : EndsUnless C t x)
    (hf : ∀ a, EndsUnless C t (f a)) : EndsUnless C t (x >>= f) := by
  intro r hr
  obtain ⟨hext, hend⟩ := hx r hr
  cases h : x r with
  | error e r' =>
    rw [after_of_error h] at hext
    rw [after_of_error (bind_of_error h)]
    refine ⟨hext, fun hbind => ?_⟩
    rcases endless_bind_iff.1 hbind with hx' | ⟨a, s', ha, -⟩
    · exact hend hx'
    · rw [h] at ha
      cases ha
  | ok a r' =>
    rw [after_of_ok h] at hext
    obtain ⟨hext', hend'⟩ := hf a r' (hr.trans _ _ _ hext)
    rw [after_bind_of_ok h, endless_bind_of_ok h]
    exact ⟨hext.trans _ _ _ hext', hend'⟩

/-- What is done with the registry itself. -/
theorem EndsUnless.get {f : Registry → RegistryM β}
    (hf : ∀ r : Registry, t.Extends r.classes → EndsUnless C t (f r)) :
    EndsUnless C t (get >>= f) :=
  fun r hr => hf r hr r hr

theorem EndsUnless.discard {x : RegistryM α} (hx : EndsUnless C t x) :
    EndsUnless C t (discard x) := by
  intro r hr
  rw [after_discard]
  refine ⟨(hx r hr).1, fun hend => (hx r hr).2 ?_⟩
  cases h : x r with
  | ok a r' => exact absurd hend (not_endless_of_ok (discard_of_ok h))
  | error e r' =>
    have hdiscard : Functor.discard x r = .error e r' := by
      show EStateM.map (Function.const _ ()) x r = _
      rw [EStateM.map, h]
    rwa [endless_of_error h, ← endless_of_error hdiscard]

theorem EndsUnless.mapM {f : α → RegistryM β} (hf : ∀ a, EndsUnless C t (f a)) (as : List α) :
    EndsUnless C t (as.mapM f) := by
  induction as with
  | nil => exact .pure _
  | cons a as ih =>
    rw [List.mapM_cons]
    exact .bind (hf a) fun _ => .bind ih fun _ => .pure _

theorem EndsUnless.foldlM {f : β → α → RegistryM β} (hf : ∀ b a, EndsUnless C t (f b a))
    (as : List α) (b : β) : EndsUnless C t (as.foldlM f b) := by
  induction as generalizing b with
  | nil => exact .pure _
  | cons a as ih =>
    rw [List.foldlM_cons]
    exact .bind (hf b a) ih

theorem resolve_ends (ty site : TypeExpr) : EndsUnless C t (onTable (ClassTable.resolve ty site)) :=
  .of_ends (onTable_extends (resolve_extends ty site)) <| not_endless_of_raises <|
    onTable_raises fun t e t' h => (resolveAt_raises _ ty site t e t' h).ends

theorem collectParameters_ends (u : ClassTable) (ty : TypeExpr) (target : ClassId) :
    EndsUnless C t (ofExcept (u.collectParameters ty target)) :=
  .ofExcept fun _ he => unless_of_ends (searchParameters_failure he).resolution.ends

theorem modelFor_ends (hC : t.Diverges → C) (ty : TypeExpr) : EndsUnless C t (modelFor ty) :=
  fun r hr => ⟨modelWithin_extends _ ty r, fun h => hC ⟨ty, _, hr, (modelWithin_endless_iff _ ty r).1 h⟩⟩

end Unless

end Registry

/-! ## The scan -/

namespace Scan

variable {C : Prop} {t : ClassTable} {S : Scan}

theorem addAccessorPair_ends (hC : t.Diverges → C) (types : List Class) (ps : List Property)
    (pair : AccessorPair) : EndsUnless C t (S.addAccessorPair types ps pair) := by
  unfold addAccessorPair
  split
  · split
    · refine .bind (resolve_ends _ _) fun valueType => .bind (resolve_ends _ _) fun paramType => ?_
      refine .get fun r _ => ?_
      split
      · exact .bind (modelFor_ends hC _) fun _ => .pure _
      · exact .bind (.log _ _) fun _ => .pure _
    · exact .pure _
  · exact .bind (.log _ _) fun _ => .pure _

theorem holderProperty_ends (hC : t.Diverges → C) (f : Field) (ty : TypeExpr) :
    EndsUnless C t (holderProperty f ty) := by
  unfold holderProperty
  refine .get fun r _ => .bind (collectParameters_ends _ _ _) fun args => ?_
  simp only
  split
  · exact .bind (resolve_ends _ _) fun _ => .bind (modelFor_ends hC _) fun _ => .pure _
  · exact .bind (.pure _) fun _ => .bind (modelFor_ends hC _) fun _ => .pure _

theorem fieldProperty?_ends (hC : t.Diverges → C) (f : Field) :
    EndsUnless C t (S.fieldProperty? f) := by
  unfold fieldProperty?
  refine .bind (resolve_ends _ _) fun fieldType => .get fun r _ => ?_
  split
  · exact .bind (holderProperty_ends hC f fieldType) fun _ => .pure _
  · refine .bind (modelFor_ends hC _) fun model => ?_
    split
    · exact .bind (.log _ _) fun _ => .pure _
    · exact .pure _

theorem addField_ends (hC : t.Diverges → C) (ps : List Property) (f : Field) :
    EndsUnless C t (S.addField ps f) := by
  unfold addField
  split
  · exact .pure _
  · refine .bind (fieldProperty?_ends hC f) fun p? => ?_
    cases p? with
    | none => exact .pure _
    | some p => exact .pure _

/-- The fields are gone through unless the chain of superclasses leads into a circle. -/
theorem addFields_ends (hC : t.Diverges → C) (howner : t.find? S.owner.id = some S.owner)
    (hloops : ∀ u, t.Extends u → u.Loops S.owner.id → C) (ps : List Property) :
    EndsUnless C t (S.addFields ps) := by
  unfold addFields
  refine .get fun r hr => .bind (.foldlM (addField_ends hC) _ _) fun qs => ?_
  refine .bind (.discard (.ofExcept fun e he hend => ?_)) fun _ => .pure _
  exact hloops r.classes hr ((superclassChain_isEndless_iff (hr.within _ _ howner)).1 ⟨e, he, hend⟩)

theorem runVia_ends (hC : t.Diverges → C) (howner : t.find? S.owner.id = some S.owner)
    (hloops : ∀ u, t.Extends u → u.Loops S.owner.id → C)
    (arrange : List AccessorPair → List AccessorPair) : EndsUnless C t (S.runVia arrange) := by
  unfold runVia
  refine .get fun r _ => .bind (.ofExcept fun e he => unless_of_ends (visit_ends he)) fun types => ?_
  refine .bind (.foldlM (addAccessorPair_ends hC types) _ _) fun ps => ?_
  refine .bind (addFields_ends hC howner hloops ps) fun qs => ?_
  split
  · exact .bind (.log _ _) fun _ => .pure _
  · exact .pure _

theorem run_ends (hC : t.Diverges → C) (howner : t.find? S.owner.id = some S.owner)
    (hloops : ∀ u, t.Extends u → u.Loops S.owner.id → C) : EndsUnless C t S.run :=
  .get fun r _ => runVia_ends hC howner hloops r.order.arrange

end Scan

/-! ## Lookups -/

namespace Model

variable {C : Prop} {t : ClassTable} {m : Model}

theorem argument_ends (target : ClassId) (index : Nat) :
    EndsUnless C t (m.argument target index) := by
  unfold argument
  refine .get fun r _ => .bind (collectParameters_ends _ _ _) fun args => ?_
  split
  · exact resolve_ends _ _
  · exact .pure _

theorem component_ends : EndsUnless C t m.component := by
  unfold component
  split
  · exact resolve_ends _ _
  · exact .pure _

theorem assemble_ends (hC : t.Diverges → C) (hcls : t.find? m.cls.id = some m.cls)
    (hloops : m.kind = .object ∨ m.kind = .generic → ∀ u, t.Extends u → u.Loops m.cls.id → C) :
    EndsUnless C t m.assemble := by
  have hscan (hk : m.kind = .object ∨ m.kind = .generic) : EndsUnless C t (scan m.cls m.type) :=
    .get fun r _ => Scan.run_ends hC hcls (hloops hk)
  unfold assemble
  cases hk : m.kind with
  | scalar => exact .pure _
  | object => exact .bind (hscan (.inl hk)) fun _ => .pure _
  | generic =>
    exact .bind (.mapM (modelFor_ends hC) _) fun _ => .bind (hscan (.inr hk)) fun _ => .pure _
  | list => exact .bind (argument_ends _ _) fun _ => .bind (modelFor_ends hC _) fun _ => .pure _
  | map =>
    exact .bind (argument_ends _ _) fun _ => .bind (argument_ends _ _) fun _ =>
      .bind (modelFor_ends hC _) fun _ => .bind (modelFor_ends hC _) fun _ => .pure _
  | array => exact .bind component_ends fun _ => .bind (modelFor_ends hC _) fun _ => .pure _

theorem requireLive_ends : EndsUnless C t requireLive := by
  unfold requireLive
  refine .get fun r _ => ?_
  split
  · exact .throw rfl
  · exact .pure _

theorem build_ends (hC : t.Diverges → C) (hcls : t.find? m.cls.id = some m.cls)
    (hloops : m.kind = .object ∨ m.kind = .generic → ∀ u, t.Extends u → u.Loops m.cls.id → C) :
    EndsUnless C t m.build := by
  unfold build
  refine .bind requireLive_ends fun _ => .bind (assemble_ends hC hcls hloops) fun c => ?_
  refine .get fun r _ => ?_
  split
  · exact .bind (.log _ _) fun _ => .pure _
  · exact .pure _

end Model

namespace Registry

/-- A lookup of the type scans the class of the model. -/
def Scans (r : Registry) (ty : TypeExpr) (m : Model) : Prop :=
  ∃ r', modelOf ty r = .ok m r' ∧ r'.isInitialized m = false ∧ (m.kind = .object ∨ m.kind = .generic)

theorem modelOf_ends {t : ClassTable} (ty : TypeExpr) : EndsUnless t.Diverges t (modelOf ty) :=
  .bind (resolve_ends ty ty) fun concrete => modelFor_ends id concrete

/-- A lookup ends unless a search is redirected over and over, or a class is scanned whose chain of
superclasses leads into a circle. -/
theorem ofType_endless {r : Registry} (hv : r.Valid) (hroot : r.classes.Rooted) {ty : TypeExpr}
    (h : Endless (ofType ty) r) :
    r.classes.Diverges ∨ ∃ m, r.Scans ty m ∧ r.classes.Loops m.raw := by
  obtain ⟨hext, hmodel⟩ := modelOf_ends ty r (Extends.refl r.classes)
  obtain ⟨e, s, he, hend⟩ := h
  cases hm : modelOf ty r with
  | error e' r₁ =>
    rw [ofType_of_error hm] at he
    cases he
    exact .inl (hmodel ⟨e, _, hm, hend⟩)
  | ok m r₁ =>
    rw [after_of_ok hm] at hext
    obtain ⟨hv₁, -, hcached⟩ := (modelOf_keeps ty).of_ok hv hm
    have hentry := hv₁.entry m hcached
    have hid : m.cls.id = m.raw := find?_id hentry.cls
    have hcls : r₁.classes.find? m.cls.id = some m.cls := by rw [hid]; exact hentry.cls
    rw [ofType_of_ok hm] at he
    rcases Model.getContents_cases m r₁ with ⟨c, -, hget⟩ | ⟨-, c, r₂, -, hget⟩ |
      ⟨hnew, e', r₂, hbuild, hget⟩
    · rw [hget] at he; cases he
    · rw [hget] at he; cases he
    · rw [hget] at he
      cases he
      have hreason : r.classes.Diverges ∨
          (m.kind = .object ∨ m.kind = .generic) ∧ r.classes.Loops m.raw :=
        (Model.build_ends (fun hd => .inl (hd.of_extends hext)) hcls
          (fun hk u hu hloops => .inr ⟨hk, hid ▸ hloops.of_extends hroot (hext.trans _ _ _ hu)⟩) r₁
          (Extends.refl _)).2 ⟨e, r₂, hbuild, hend⟩
      refine hreason.imp_right fun ⟨hk, hloops⟩ => ⟨m, ⟨r₁, hm, ?_, hk⟩, hloops⟩
      rw [isInitialized, hnew]
      rfl

/-- The scan of a class whose chain of superclasses leads into a circle gives no model. -/
theorem ofType_of_looping {r : Registry} (hv : r.Valid) {ty : TypeExpr} {m : Model}
    (hscan : r.Scans ty m) (hloops : r.classes.Loops m.raw) (n : Model) (r' : Registry) :
    ofType ty r ≠ .ok n r' := by
  obtain ⟨r₁, hm, hnew, hk⟩ := hscan
  intro h
  obtain ⟨s, c, hm', hget⟩ := ofType_stages h
  cases hm.symm.trans hm'
  obtain ⟨hv₁, hg₁, hcached⟩ := (modelOf_keeps ty).of_ok hv hm
  have hentry := hv₁.entry m hcached
  have hid : m.cls.id = m.raw := find?_id hentry.cls
  rcases Model.getContents_cases m r₁ with ⟨d, hd, -⟩ | ⟨-, d, r₂, hbuild, -⟩ | ⟨-, e, r₂, -, hfail⟩
  · rw [isInitialized, hd] at hnew
    cases hnew
  · obtain ⟨s₁, s₂, hvs, hgs, hrun, -⟩ := Model.build_scanned hv₁ hentry.resolved hk hbuild
    obtain ⟨types, ps, s₃, s₄, -, hpairs, hfields, -⟩ := Scan.run_eq_ok hrun
    obtain ⟨chain, hchain, -⟩ := Scan.addFields_eq_ok hfields
    have hwithin : r.classes.Within s₃.classes :=
      (hg₁.trans (hgs.trans ((Scan.addAccessorPairs_keeps types _).of_ok hvs hpairs).2.1)).within
    have hcls : s₃.classes.find? m.cls.id = some m.cls := by
      rw [hid]
      exact (hgs.trans ((Scan.addAccessorPairs_keeps types _).of_ok hvs hpairs).2.1).within _ _ hentry.cls
    have hloops' : s₃.classes.Loops m.cls.id := by
      rw [hid]
      exact hloops.within hwithin
    obtain ⟨id, hend⟩ := (superclassChain_endless_iff hcls).2 hloops'
    rw [hend] at hchain
    cases hchain
  · rw [hfail] at hget
    cases hget

end Registry

/-! ## Every reachable registry -/

/-- Instantiation has no end just when it makes an object of a class whose chain of superclasses leads into a
circle. A lookup has no end only when it scans such a class, and then it never answers, or when a search is
redirected too often. As long as synthetic classes name classes as their superclasses, and no circle of them,
no search is redirected more often than there are classes. -/
theorem ends_unless_looping (config : Config) (ops : List Operation) :
    let r := (reached config ops).registry
    (∀ id h, Endless (r.classes.instantiate id) h ↔
      ∃ c, r.classes.find? id = some c ∧ r.classes.Slotted c ∧ r.classes.Loops id) ∧
    (∀ ty, Endless (ofType ty) r →
      r.classes.Diverges ∨ ∃ m, r.Scans ty m ∧ r.classes.Loops m.raw) ∧
    (∀ ty m, r.Scans ty m → r.classes.Loops m.raw → ∀ n r', ofType ty r ≠ .ok n r') ∧
    (r.classes.SyntheticsNamed → (∀ a, ¬ TransGen r.classes.Stands a a) →
      ∀ n ty t, r.classes.Extends t → Redirects n ty t → n ≤ r.classes.size) := by
  intro r
  have hv : r.Valid := reached_valid config ops
  refine ⟨instantiate_endless_iff r.classes, fun ty => ofType_endless hv (reached_rooted config ops), ?_, ?_⟩
  · exact fun ty m hscan hloops => ofType_of_looping hv hscan hloops
  · exact fun hnamed hacyclic n ty t ht hr => redirects_le_size hnamed hacyclic ht hr

/-- Two classes that are each other's superclass, and a synthetic class that is its own. -/
theorem looping_walks :
    let first : Class := { Class.bare ⟨"A"⟩ .plain with superclass := some (.named ⟨"B"⟩) }
    let second : Class := { Class.bare ⟨"B"⟩ .plain with superclass := some (.named ⟨"A"⟩) }
    let proxy : Class :=
      { Class.bare ⟨"S"⟩ .plain with superclass := some (.named ⟨"S"⟩), synthetic := true }
    let r := (reached {} [.define first, .define second, .define proxy]).registry
    (∀ h, Endless (r.classes.instantiate ⟨"A"⟩) h) ∧ Endless (Registry.of ⟨"A"⟩) r ∧
      Endless (Registry.of ⟨"S"⟩) r := by
  intro first second proxy r
  have hloops : r.classes.Loops ⟨"A"⟩ :=
    ⟨⟨"A"⟩, .refl, .tail (.single ⟨first, rfl, rfl⟩) ⟨second, rfl, rfl⟩⟩
  have hslotted : r.classes.Slotted first :=
    ⟨.inl rfl, rfl, by decide, by decide, by decide +kernel, by decide +kernel⟩
  refine ⟨fun h => (instantiate_endless_iff _ _ _).2 ⟨first, rfl, hslotted, hloops⟩, ?_, ?_⟩
  · decide +kernel
  · have hredirects : ∀ n, Redirects n (.named ⟨"S"⟩) r.classes := by
      intro n
      induction n with
      | zero => trivial
      | succ n ih => exact ⟨⟨"S"⟩, [], proxy, .named ⟨"S"⟩, .named ⟨"S"⟩, r.classes, rfl, rfl, rfl, rfl, ih⟩
    obtain ⟨e, r', he, hend⟩ := (modelWithin_endless_iff redirectionLimit (.named ⟨"S"⟩) r).2 (hredirects _)
    have hresolve : onTable (ClassTable.resolve (.named ⟨"S"⟩) (.named ⟨"S"⟩)) r = .ok (.named ⟨"S"⟩) r := rfl
    have hmodel : modelOf (.named ⟨"S"⟩) r = .error e r' := by
      rw [modelOf, bind_of_ok hresolve, modelFor, he]
    exact ⟨e, r', ofType_of_error hmodel, hend⟩

end Introspect
