import Introspect.Proofs.Classes.Mentions
import Introspect.Proofs.Following

/-!
Resolution in two tables: what is answered in the one is answered in the other.

Both tables lie within a larger one. The expression and its scope are grounded in the table that follows,
so that it finds every class on the way.

* `Complete`: an anchored table whose array classes have grounded components, too.
* `resolveAt_follows`: the same answer, grounded again, in a table that is complete again.
-/

namespace Introspect.ClassTable

open TypeExpr

variable {u t t' : ClassTable}

structure Complete (u t : ClassTable) : Prop extends Anchored u t where
  components : ∀ id c component, t.find? id = some c → c.component? = some component →
    Grounded u t component

/-- The table does not know more than the larger one. -/
def Below (u t : ClassTable) : Prop := t.Within u

theorem Below.inward {α : Type} {x : TableM α} (hx : Moves Within x) : Inward (Below u) x :=
  hx.mono fun _ _ h h' => Within.trans _ _ _ h h'

/-- The later table is complete, and the answer is grounded in it. -/
structure Settled (u t : ClassTable) (r : TypeExpr) (t' : ClassTable) : Prop where
  complete : Complete u t'
  within : t.Within t'
  grounded : Grounded u t' r

theorem Settled.refl (h : Complete u t) {r : TypeExpr} (hr : Grounded u t r) : Settled u t r t :=
  ⟨h, Within.refl t, hr⟩

theorem Settled.after (hw : t.Within t') {r : TypeExpr} {t'' : ClassTable}
    (h : Settled u t' r t'') : Settled u t r t'' :=
  ⟨h.complete, Within.trans _ _ _ hw h.within, h.grounded⟩

/-- An array class of a grounded component keeps the table complete. -/
theorem Complete.intern (h : Complete u t) {component : TypeExpr} (hc : Grounded u t component)
    (hu : (t.intern (arrayClass component)).Within u) :
    Complete u (t.intern (arrayClass component)) where
  toAnchored := h.toAnchored.extend (intern_extends t component) hu
  components id c d hfound hd := by
    have hw := intern_grows t (arrayClass component)
    by_cases hid : t.contains (arrayClass component).id = true
    · rw [intern_of_contains hid] at hfound ⊢
      exact h.components id c d hfound hd
    · by_cases hsame : (arrayClass component).id = id
      · have hnew : (t.intern (arrayClass component)).find? id = some (arrayClass component) := by
          simp only [ClassTable.intern, hid]
          simp [find?, hsame]
        rw [hnew] at hfound
        cases hfound
        cases hd
        exact hc.mono hw
      · have hold : (t.intern (arrayClass component)).find? id = t.find? id := by
          simp only [ClassTable.intern, hid]
          exact find?_cons_of_ne hsame
        rw [hold] at hfound
        exact (h.components id c d hfound hd).mono hw

variable {s : ClassTable}

theorem arrayOf_follows (h : Complete u s) {component : TypeExpr}
    (hc : Grounded u s component) :
    Follows (Below u) s t (arrayOf component) (arrayOf component) fun i j s' _ =>
      i = j ∧ Settled u s (.named i) s' := by
  intro j t' hj ht hs
  obtain ⟨rfl, rfl, hraw⟩ := arrayOf_eq_ok hj
  have hok : arrayOf component s =
      .ok (arrayId component) (s.intern (arrayClass component)) := by
    refine arrayOf_of_found fun raw hr => ?_
    obtain ⟨c, hfound⟩ := hraw raw hr
    have hfound' := (Within.trans _ _ _ (intern_grows t _) ht).lookup hfound
    exact ⟨c, lookup_eq_ok_iff.1 (h.toAnchored.lookup (hc.raw hr) hfound')⟩
  rw [after_of_ok hok] at hs
  refine ⟨_, _, hok, rfl, h.intern hc hs, intern_grows s _, ?_⟩
  exact grounded_of_contains (contains_intern s (arrayClass component))

/-- A class that the one table finds is found in the other one, when it is grounded there. -/
theorem Complete.lookup (h : Complete u s) (ht : t.Within u) {id : ClassId}
    (hid : Grounded u s (.named id)) {c : Class} (hc : t.lookup id = .ok c) : s.lookup id = .ok c :=
  h.toAnchored.lookup hid (ht.lookup hc)

/-- The array class of a component that is computed first. -/
theorem arrayType_follows {x y : TableM TypeExpr}
    (hxy : Follows (Below u) s t x y fun p q s' _ => p = q ∧ Settled u s p s') :
    Follows (Below u) s t (do return .named (← arrayOf (← x))) (do return .named (← arrayOf (← y)))
      fun p q s' _ => p = q ∧ Settled u s p s' := by
  refine Follows.bind hxy (fun c d s' t' _ _ _ _ hcd => ?_)
    (fun c => Inward.bind (Below.inward (arrayOf_grows c)) fun _ => Inward.pure _)
    fun c => Inward.bind (Below.inward (arrayOf_grows c)) fun _ => Inward.pure _
  obtain ⟨rfl, hset⟩ := hcd
  refine Follows.bind (arrayOf_follows hset.complete hset.grounded)
    (fun i j s'' t'' _ _ _ _ hij => ?_) (fun _ => Inward.pure _) fun _ => Inward.pure _
  obtain ⟨rfl, hset'⟩ := hij
  exact Follows.pure ⟨rfl, .after hset.within hset'⟩

/-- A loop over grounded expressions: what was answered so far stays grounded, and so does what is still
to come. -/
theorem mapM_follows {f g : TypeExpr → TableM TypeExpr} {args : List TypeExpr} (h : Complete u s)
    (ht : t.Within u) (hargs : ∀ arg ∈ args, Grounded u s arg)
    (hfg : ∀ arg ∈ args, ∀ s' t', Complete u s' → s.Within s' → t'.Within u → Grounded u s' arg →
      Follows (Below u) s' t' (f arg) (g arg) fun p q s'' _ => p = q ∧ Settled u s' p s'')
    (hf : ∀ arg, Moves Within (f arg)) (hg : ∀ arg, Moves Within (g arg)) :
    Follows (Below u) s t (args.mapM f) (args.mapM g) fun ps qs s' _ =>
      ps = qs ∧ Complete u s' ∧ s.Within s' ∧ ∀ p ∈ ps, Grounded u s' p := by
  have loop : Follows (Below u) s t (args.mapM f) (args.mapM g) fun ps qs s' t' =>
      ps = qs ∧ Complete u s' ∧ s.Within s' ∧ t'.Within u ∧ ∀ p ∈ ps, Grounded u s' p := by
    refine Follows.mapM ?_ (fun arg => Below.inward (hf arg)) (fun arg => Below.inward (hg arg))
      ⟨rfl, h, Within.refl s, ht, fun p hp => by cases hp⟩
    rintro arg harg ps _ s' t' ⟨rfl, hcomplete, hwithin, ht', hgrounded⟩ q t'' hq ht'' hs''
    obtain ⟨p, s'', hp, rfl, hset⟩ := hfg arg harg s' t' hcomplete hwithin ht'
      ((hargs arg harg).mono hwithin) q t'' hq ht'' hs''
    refine ⟨p, s'', hp, rfl, hset.complete, Within.trans _ _ _ hwithin hset.within, ht'', ?_⟩
    intro a ha
    rcases List.mem_append.1 ha with ha | ha
    · exact (hgrounded a ha).mono hset.within
    · cases List.mem_singleton.1 ha
      exact hset.grounded
  exact loop.mono fun _ _ _ _ ⟨heq, hcomplete, hwithin, _, hgrounded⟩ =>
    ⟨heq, hcomplete, hwithin, hgrounded⟩

theorem eraseAt_follows {n : Nat} {ty : TypeExpr} (h : Complete u s) (ht : t.Within u)
    (hty : Grounded u s ty) :
    Follows (Below u) s t (eraseAt n ty) (eraseAt n ty) fun p q s' _ =>
      p = q ∧ Settled u s p s' := by
  induction n generalizing ty s t with
  | zero => intro b t' hb; cases hb
  | succ n ih =>
    cases ty with
    | named id => exact Follows.pure ⟨rfl, .refl h hty⟩
    | apply raw args => exact Follows.pure ⟨rfl, .refl h (hty.raw rfl)⟩
    | wildcard lower upper =>
      cases upper with
      | nil => exact Follows.pure ⟨rfl, .refl h h.grounded_object⟩
      | cons bound rest =>
        exact ih h ht (hty.bound (by simp))
    | var owner name =>
      simp only [eraseAt]
      refine Follows.get (Follows.ofExcept fun c hc => ⟨c, h.lookup ht hty.owner hc, ?_⟩)
      have hcs := h.lookup ht hty.owner hc
      cases hb : (c.typeParamIndex? name).bind fun i => c.typeParams[i]?.bind (·.bounds.head?) with
      | some bound =>
        obtain ⟨i, -, hi⟩ := Option.bind_eq_some_iff.1 hb
        exact ih h ht (bound_grounded h.toAnchored hcs hi)
      | none => exact Follows.pure ⟨rfl, .refl h h.grounded_object⟩
    | array component =>
      simp only [eraseAt]
      exact arrayType_follows (ih h ht hty)

theorem eraseBound_follows {n index : Nat} {owner : ClassId} {c : Class} (h : Complete u s)
    (ht : t.Within u) (hc : s.lookup owner = .ok c) :
    Follows (Below u) s t (eraseBound n c index) (eraseBound n c index) fun p q s' _ =>
      p = q ∧ Settled u s p s' := by
  unfold eraseBound
  cases hb : c.typeParams[index]?.bind (·.bounds.head?) with
  | some bound => exact eraseAt_follows h ht (bound_grounded h.toAnchored hc hb)
  | none => exact Follows.pure ⟨rfl, .refl h h.grounded_object⟩

theorem resolveAt_follows {n : Nat} {ty site site' : TypeExpr} (h : Complete u s) (ht : t.Within u)
    (hsame : site.parts? = site'.parts?) (hty : Grounded u s ty) (hsite : Grounded u s site) :
    Follows (Below u) s t (resolveAt n ty site) (resolveAt n ty site') fun p q s' _ =>
      p = q ∧ Settled u s p s' := by
  induction n generalizing ty s t with
  | zero => intro b t' hb; cases hb
  | succ n ih =>
    cases ty with
    | named id => exact Follows.pure ⟨rfl, .refl h hty⟩
    | apply raw args =>
      simp only [resolveAt]
      have loop := mapM_follows (t := t) h ht (grounded_args hty rfl)
        (fun arg _ s' t' hs' hw ht' harg => ih hs' ht' harg (hsite.mono hw))
        (fun arg => resolveAt_grows n arg site) fun arg => resolveAt_grows n arg site'
      refine Follows.bind loop (fun ps qs s' t' _ _ _ _ hps => ?_) (fun _ => Inward.pure _)
        fun _ => Inward.pure _
      obtain ⟨rfl, hcomplete, hwithin, hgrounded⟩ := hps
      exact Follows.pure ⟨rfl, hcomplete, hwithin, hty.apply hwithin hgrounded⟩
    | wildcard lower upper =>
      simp only [resolveAt]
      cases hb : lower.head?.or upper.head? with
      | none => exact Follows.pure ⟨rfl, .refl h h.grounded_object⟩
      | some bound => exact ih h ht (hty.bound (mem_bounds hb)) hsite
    | var owner name =>
      simp only [resolveAt]
      refine Follows.get (Follows.ofExcept fun c hc => ⟨c, h.lookup ht hty.owner hc, ?_⟩)
      have hcs := h.lookup ht hty.owner hc
      cases hi : c.typeParamIndex? name with
      | none => intro b t' hb; cases hb
      | some index =>
        refine Follows.ofExcept fun params hp => ⟨params, ?_, ?_⟩
        · rw [← collectParameters_congr hsame] at hp
          exact h.toAnchored.collectParameters hsite (ht.collectParameters hp)
        · rw [← collectParameters_congr hsame] at hp
          have hparams := searchParameters_grounded h.toAnchored hsite
            (h.toAnchored.collectParameters hsite (ht.collectParameters hp))
          cases ha : params[index]? with
          | none => exact eraseBound_follows h ht hcs
          | some arg =>
            by_cases hself : arg = .var owner name
            · simp only [hself, if_true]
              exact eraseBound_follows h ht hcs
            · simp only [hself, if_false]
              exact ih h ht (hparams arg (List.mem_of_getElem? ha)) hsite
    | array component =>
      simp only [resolveAt]
      exact arrayType_follows (ih h ht hty hsite)

end Introspect.ClassTable
