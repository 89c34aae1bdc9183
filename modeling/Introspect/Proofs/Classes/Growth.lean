import Introspect.Classes.Supertypes
import Introspect.Proofs.Classes.Resolution

/-!
Class tables grow: a class that is found stays what it is, and whatever was computed from found classes
only is computed again in every later table.

* `Class.SameScope`: what a search sees of a class.
* `Within`: every class of one table is found in the other.
* `Extends`: what the other has besides are array classes.
* `resolveAt_extends`, `resolveAt_replays`: resolution only adds array classes, and once it has answered it
  gives the same answer later, adding nothing.
-/

namespace Introspect

/-! ## Scopes of classes -/

/-- What a search along supertypes sees of a class. -/
structure Class.SameScope (c d : Class) : Prop where
  id : c.id = d.id
  typeParams : c.typeParams = d.typeParams
  supertypes : c.supertypes = d.supertypes

theorem Class.SameScope.refl (c : Class) : c.SameScope c := ⟨rfl, rfl, rfl⟩

theorem Class.SameScope.typeParamIndex? {c d : Class} (h : c.SameScope d) (name : String) :
    c.typeParamIndex? name = d.typeParamIndex? name := by
  unfold Class.typeParamIndex?
  rw [h.typeParams]

namespace TypeExpr

mutual

theorem bindVars_congr {c d : Class} (h : c.SameScope d) (args : List TypeExpr) :
    (ty : TypeExpr) → bindVars c args ty = bindVars d args ty
  | .named id => rfl
  | .apply raw inner => by
    simp only [bindVars]
    rw [bindVarsList_congr h args inner]
  | .wildcard lower upper => by
    simp only [bindVars]
    rw [bindVarsList_congr h args lower, bindVarsList_congr h args upper]
  | .var o name => by
    simp only [bindVars]
    rw [h.id, h.typeParamIndex? name]
  | .array component => by
    simp only [bindVars]
    rw [bindVars_congr h args component]

theorem bindVarsList_congr {c d : Class} (h : c.SameScope d) (args : List TypeExpr) :
    (tys : List TypeExpr) → bindVarsList c args tys = bindVarsList d args tys
  | [] => rfl
  | ty :: tys => by
    simp only [bindVarsList]
    rw [bindVars_congr h args ty, bindVarsList_congr h args tys]

end

theorem substitute_congr {c d : Class} (h : c.SameScope d) (args : List TypeExpr) (ty : TypeExpr) :
    substitute c args ty = substitute d args ty := by
  unfold substitute
  rw [bindVars_congr h args ty]

end TypeExpr

namespace ClassTable

/-! ## Tables that grow -/

/-- Whatever the one table finds, the other finds as well. -/
def Within (t u : ClassTable) : Prop := ∀ id c, t.find? id = some c → u.find? id = some c

theorem Within.refl (t : ClassTable) : t.Within t := fun _ _ h => h

theorem Within.trans (t u v : ClassTable) (htu : t.Within u) (huv : u.Within v) : t.Within v :=
  fun id c h => huv id c (htu id c h)

/-- `Object` is declared, without supertypes. -/
def Rooted (t : ClassTable) : Prop := ∃ c, t.find? .object = some c ∧ c.supertypeIds = []

theorem Rooted.within {t u : ClassTable} (h : t.Rooted) (htu : t.Within u) : u.Rooted := by
  obtain ⟨c, hc, hs⟩ := h
  exact ⟨c, htu _ _ hc, hs⟩

theorem builtin_rooted : builtin.Rooted := ⟨Class.bare .object .plain, rfl, rfl⟩

/-- The table with some array classes more. -/
structure Extends (t u : ClassTable) : Prop where
  within : t.Within u
  arrays : ∀ id c, u.find? id = some c → t.find? id = some c ∨ ∃ component, c = arrayClass component

theorem Extends.refl (t : ClassTable) : t.Extends t := ⟨Within.refl t, fun _ _ h => .inl h⟩

theorem Extends.trans (t u v : ClassTable) (htu : t.Extends u) (huv : u.Extends v) :
    t.Extends v where
  within := Within.trans t u v htu.within huv.within
  arrays id c h := by
    rcases huv.arrays id c h with h | h
    · exact htu.arrays id c h
    · exact .inr h

theorem contains_iff {t : ClassTable} {id : ClassId} :
    t.contains id = true ↔ ∃ c, t.find? id = some c := by
  rw [contains, Option.isSome_iff_exists]

theorem lookup_eq_ok_iff {t : ClassTable} {id : ClassId} {c : Class} :
    t.lookup id = .ok c ↔ t.find? id = some c := by
  constructor
  · exact find?_of_lookup
  · intro h
    simp only [lookup, h]

theorem lookup_eq_error_iff {t : ClassTable} {id : ClassId} {e : Error} :
    t.lookup id = .error e ↔ t.find? id = none ∧ e = .unknownClass id := by
  unfold lookup
  cases h : t.find? id with
  | some c => simp
  | none => simp [eq_comm]

namespace Within

variable {t u : ClassTable}

theorem contains (h : t.Within u) {id : ClassId} (ht : t.contains id = true) :
    u.contains id = true := by
  obtain ⟨c, hc⟩ := contains_iff.1 ht
  exact contains_iff.2 ⟨c, h id c hc⟩

theorem lookup (h : t.Within u) {id : ClassId} {c : Class} (ht : t.lookup id = .ok c) :
    u.lookup id = .ok c :=
  lookup_eq_ok_iff.2 (h id c (lookup_eq_ok_iff.1 ht))

end Within

/-! ## Steps that grow a table -/

theorem find?_cons_of_ne {c : Class} {cs : List Class} {id : ClassId} (h : c.id ≠ id) :
    (ClassTable.mk (c :: cs)).find? id = (ClassTable.mk cs).find? id := by
  simp [find?, h]

theorem within_cons {t : ClassTable} {c : Class} (h : t.contains c.id = false) :
    t.Within ⟨c :: t.classes⟩ := by
  intro id d hd
  have hne : c.id ≠ id := by
    rintro rfl
    rw [contains, hd] at h
    cases h
  rw [find?_cons_of_ne hne]
  exact hd

theorem normalize_id (c : Class) : c.normalize.id = c.id := by
  unfold Class.normalize
  split <;> rfl

theorem define_grows {t u : ClassTable} {c : Class} (h : t.define c = .ok u) : t.Within u := by
  unfold define at h
  cases hc : t.contains c.id with
  | true => simp [hc] at h
  | false =>
    simp only [hc, Bool.false_eq_true, if_false, Except.ok.injEq] at h
    subst h
    exact within_cons (by rw [normalize_id]; exact hc)

theorem intern_grows (t : ClassTable) (c : Class) : t.Within (t.intern c) := by
  unfold intern
  cases hc : t.contains c.id with
  | true => exact Within.refl t
  | false => exact within_cons hc

theorem intern_extends (t : ClassTable) (component : TypeExpr) :
    t.Extends (t.intern (arrayClass component)) where
  within := intern_grows t _
  arrays id c h := by
    unfold intern at h
    split at h
    · exact .inl h
    · by_cases hid : (arrayClass component).id = id
      · refine .inr ⟨component, ?_⟩
        simp [find?, hid] at h
        exact h.symm
      · rw [find?_cons_of_ne hid] at h
        exact .inl h

theorem intern_of_contains {t : ClassTable} {c : Class} (h : t.contains c.id = true) :
    t.intern c = t := by
  unfold intern
  rw [if_pos h]

theorem contains_intern (t : ClassTable) (c : Class) : (t.intern c).contains c.id = true := by
  unfold intern
  cases hc : t.contains c.id with
  | true => exact hc
  | false => simp [contains, find?]

theorem arrayOf_eq_ok {component : TypeExpr} {t t' : ClassTable} {id : ClassId}
    (h : arrayOf component t = .ok id t') :
    id = arrayId component ∧ t' = t.intern (arrayClass component) ∧
      ∀ raw, component.raw? = some raw → ∃ c, t.lookup raw = .ok c := by
  unfold arrayOf at h
  split at h
  · cases h
  · next hne =>
    cases h
    refine ⟨rfl, rfl, fun raw hraw => ?_⟩
    cases hc : t.lookup raw with
    | ok c => exact ⟨c, rfl⟩
    | error e => exact absurd (by rw [hraw, Option.map_some, hc]) (hne e)

/-- An array class can be made when the class of its component is declared. -/
theorem arrayOf_of_found {component : TypeExpr} {t : ClassTable}
    (h : ∀ raw, component.raw? = some raw → ∃ c, t.find? raw = some c) :
    arrayOf component t = .ok (arrayId component) (t.intern (arrayClass component)) := by
  unfold arrayOf
  cases hr : component.raw? with
  | none => rfl
  | some raw =>
    obtain ⟨c, hc⟩ := h raw hr
    rw [Option.map_some, lookup_eq_ok_iff.2 hc]

theorem arrayOf_extends (component : TypeExpr) : Moves Extends (arrayOf component) := by
  intro t
  unfold after
  cases h : arrayOf component t with
  | ok id t' =>
    rw [(arrayOf_eq_ok h).2.1]
    exact intern_extends t component
  | error e t' =>
    unfold arrayOf at h
    split at h
    · cases h; exact Extends.refl t
    · cases h

theorem arrayOf_replays (component : TypeExpr) : Replays Within (arrayOf component) := by
  intro t id t' u h hu
  obtain ⟨rfl, rfl, hraw⟩ := arrayOf_eq_ok h
  have htu : t.Within u := Within.trans _ _ _ (intern_grows t _) hu
  rw [arrayOf_of_found fun raw hr => (hraw raw hr).imp fun c hc => htu _ _ (lookup_eq_ok_iff.1 hc),
    intern_of_contains (hu.contains (contains_intern t (arrayClass component)))]

/-! ## Parameter search -/

theorem firstNonEmpty_congr {α β : Type} {f g : α → Except Error (List β)} {as : List α}
    {bs : List β} (hfg : ∀ a ∈ as, ∀ cs, f a = .ok cs → g a = .ok cs)
    (h : firstNonEmpty f as = .ok bs) : firstNonEmpty g as = .ok bs := by
  induction as with
  | nil => exact h
  | cons a as ih =>
    unfold firstNonEmpty at h ⊢
    cases ha : f a with
    | error e => simp only [ha] at h; cases h
    | ok cs =>
      rw [hfg a (List.mem_cons_self ..) cs ha]
      simp only [ha] at h ⊢
      cases hcs : cs.isEmpty with
      | true =>
        simp only [hcs, if_true] at h ⊢
        exact ih (fun a' ha' => hfg a' (List.mem_cons_of_mem _ ha')) h
      | false => simpa [hcs] using h

/-- A search finds the same in another table, when that one finds the classes on the way, or classes that
no search tells from them. -/
theorem searchParameters_of_lookup {t u : ClassTable} {P : TypeExpr → Prop}
    (hP : ∀ ty raw args c, P ty → ty.parts? = some (raw, args) → t.lookup raw = .ok c →
      ∃ d, u.lookup raw = .ok d ∧ c.SameScope d ∧
        ∀ sup ∈ c.supertypes, P (TypeExpr.substitute c args sup))
    {target : ClassId} {n : Nat} {ty : TypeExpr} {args : List TypeExpr} (hty : P ty)
    (h : t.searchParameters target n ty = .ok args) :
    u.searchParameters target n ty = .ok args := by
  induction n generalizing ty args with
  | zero => cases h
  | succ n ih =>
    unfold searchParameters at h ⊢
    cases hp : ty.parts? with
    | none => simp only [hp] at h ⊢; exact h
    | some p =>
      obtain ⟨raw, inner⟩ := p
      simp only [hp] at h ⊢
      by_cases hr : raw = target
      · simp only [hr, if_true] at h ⊢; exact h
      · simp only [hr, if_false] at h ⊢
        cases hc : t.lookup raw with
        | error e => simp only [hc] at h; cases h
        | ok c =>
          obtain ⟨d, hd, hcd, hsupers⟩ := hP ty raw inner c hty hp hc
          have hsame : d.supertypes.map (TypeExpr.substitute d inner) =
              c.supertypes.map (TypeExpr.substitute c inner) := by
            rw [← hcd.supertypes]
            exact List.map_congr_left fun ty _ => (TypeExpr.substitute_congr hcd inner ty).symm
          rw [hd]
          simp only [hc] at h ⊢
          rw [hsame]
          cases hf : (c.supertypes.map (TypeExpr.substitute c inner)).findSome?
              (TypeExpr.argumentsOf? target) with
          | some found => simp only [hf] at h ⊢; exact h
          | none =>
            simp only [hf] at h ⊢
            refine firstNonEmpty_congr (fun sup hsup cs hcs => ?_) h
            obtain ⟨s, hs, rfl⟩ := List.mem_map.1 hsup
            exact ih (hsupers s hs) hcs

theorem Within.searchParameters {t u : ClassTable} (htu : t.Within u) {target : ClassId} {n : Nat}
    {ty : TypeExpr} {args : List TypeExpr} (h : t.searchParameters target n ty = .ok args) :
    u.searchParameters target n ty = .ok args :=
  searchParameters_of_lookup (P := fun _ => True)
    (fun _ _ _ c _ _ hc => ⟨c, htu.lookup hc, .refl c, fun _ _ => trivial⟩) trivial h

theorem Within.collectParameters {t u : ClassTable} (htu : t.Within u) {ty : TypeExpr}
    {target : ClassId} {args : List TypeExpr} (h : t.collectParameters ty target = .ok args) :
    u.collectParameters ty target = .ok args :=
  htu.searchParameters h

/-! ## Resolution -/

theorem eraseAt_extends (n : Nat) (ty : TypeExpr) : Moves Extends (eraseAt n ty) := by
  induction n generalizing ty with
  | zero => exact Moves.throw Extends.refl _
  | succ n ih =>
    cases ty with
    | named id => exact Moves.pure Extends.refl _
    | apply raw args => exact Moves.pure Extends.refl _
    | wildcard lower upper =>
      cases upper with
      | nil => exact Moves.pure Extends.refl _
      | cons bound rest => exact ih bound
    | var owner name =>
      simp only [eraseAt]
      refine Moves.bind Extends.trans (Moves.get Extends.refl) fun t => ?_
      refine Moves.bind Extends.trans (Moves.ofExcept Extends.refl _) fun c => ?_
      split
      · exact ih _
      · exact Moves.pure Extends.refl _
    | array component =>
      simp only [eraseAt]
      refine Moves.bind Extends.trans (ih component) fun c => ?_
      exact Moves.bind Extends.trans (arrayOf_extends c) fun _ => Moves.pure Extends.refl _

theorem eraseBound_congr {c d : Class} (h : c.SameScope d) (n index : Nat) :
    eraseBound n c index = eraseBound n d index := by
  unfold eraseBound
  rw [h.typeParams]

theorem eraseBound_extends (n : Nat) (c : Class) (index : Nat) :
    Moves Extends (eraseBound n c index) := by
  unfold eraseBound
  split
  · exact eraseAt_extends n _
  · exact Moves.pure Extends.refl _

theorem resolveAt_extends (n : Nat) (ty site : TypeExpr) : Moves Extends (resolveAt n ty site) := by
  induction n generalizing ty with
  | zero => exact Moves.throw Extends.refl _
  | succ n ih =>
    cases ty with
    | named id => exact Moves.pure Extends.refl _
    | apply raw args =>
      simp only [resolveAt]
      refine Moves.bind Extends.trans (Moves.mapM Extends.refl Extends.trans fun arg _ => ih arg) fun _ => ?_
      exact Moves.pure Extends.refl _
    | wildcard lower upper =>
      simp only [resolveAt]
      split
      · exact ih _
      · exact Moves.pure Extends.refl _
    | var owner name =>
      simp only [resolveAt]
      refine Moves.bind Extends.trans (Moves.get Extends.refl) fun t => ?_
      refine Moves.bind Extends.trans (Moves.ofExcept Extends.refl _) fun c => ?_
      split
      · exact Moves.throw Extends.refl _
      · next index _ =>
        refine Moves.bind Extends.trans (Moves.ofExcept Extends.refl _) fun params => ?_
        split
        · split
          · exact eraseBound_extends n c index
          · exact ih _
        · exact eraseBound_extends n c index
    | array component =>
      simp only [resolveAt]
      refine Moves.bind Extends.trans (ih component) fun c => ?_
      exact Moves.bind Extends.trans (arrayOf_extends c) fun _ => Moves.pure Extends.refl _

theorem arrayOf_grows (component : TypeExpr) : Moves Within (arrayOf component) :=
  (arrayOf_extends component).mono fun _ _ h => h.within

theorem eraseAt_grows (n : Nat) (ty : TypeExpr) : Moves Within (eraseAt n ty) :=
  (eraseAt_extends n ty).mono fun _ _ h => h.within

theorem resolveAt_grows (n : Nat) (ty site : TypeExpr) : Moves Within (resolveAt n ty site) :=
  (resolveAt_extends n ty site).mono fun _ _ h => h.within

theorem resolve_grows (ty site : TypeExpr) : Moves Within (ClassTable.resolve ty site) :=
  resolveAt_grows _ ty site

theorem eraseAt_replays (n : Nat) (ty : TypeExpr) : Replays Within (eraseAt n ty) := by
  induction n generalizing ty with
  | zero => exact Replays.throw _
  | succ n ih =>
    cases ty with
    | named id => exact Replays.pure _
    | apply raw args => exact Replays.pure _
    | wildcard lower upper =>
      cases upper with
      | nil => exact Replays.pure _
      | cons bound rest => exact ih bound
    | var owner name =>
      intro t r t' u h hu
      have htu : t.Within u := Within.trans _ _ _ ((eraseAt_grows (n + 1) _).ok h) hu
      simp only [eraseAt] at h ⊢
      obtain ⟨t₀, s, hget, h₁⟩ := bind_eq_ok_iff.1 h
      cases hget
      obtain ⟨c, s, hc, h₂⟩ := bind_eq_ok_iff.1 h₁
      obtain ⟨hc, rfl⟩ := ofExcept_eq_ok_iff.1 hc
      rw [bind_of_ok (get_apply u), htu.lookup hc, bind_of_ok (ofExcept_ok c u)]
      cases hb : (c.typeParamIndex? name).bind fun i => c.typeParams[i]?.bind (·.bounds.head?) with
      | some bound => simp only [hb] at h₂ ⊢; exact ih bound _ _ _ u h₂ hu
      | none => simp only [hb] at h₂ ⊢; cases h₂; rfl
    | array component =>
      simp only [eraseAt]
      refine Replays.bind Within.trans (ih component) (fun c => ?_) fun c => ?_
      · exact Replays.bind Within.trans (arrayOf_replays c) (fun _ => Replays.pure _)
          fun _ => Moves.pure Within.refl _
      · exact Moves.bind Within.trans (arrayOf_grows c) fun _ => Moves.pure Within.refl _

theorem eraseBound_replays (n : Nat) (c : Class) (index : Nat) :
    Replays Within (eraseBound n c index) := by
  unfold eraseBound
  split
  · exact eraseAt_replays n _
  · exact Replays.pure _

theorem resolveAt_replays (n : Nat) (ty site : TypeExpr) :
    Replays Within (resolveAt n ty site) := by
  induction n generalizing ty with
  | zero => exact Replays.throw _
  | succ n ih =>
    cases ty with
    | named id => exact Replays.pure _
    | apply raw args =>
      simp only [resolveAt]
      refine Replays.bind Within.trans ?_ (fun _ => Replays.pure _)
        fun _ => Moves.pure Within.refl _
      exact Replays.mapM Within.refl Within.trans ih (fun arg => resolveAt_grows n arg site) args
    | wildcard lower upper =>
      simp only [resolveAt]
      split
      · exact ih _
      · exact Replays.pure _
    | var owner name =>
      intro t r t' u h hu
      have htu : t.Within u := Within.trans _ _ _ ((resolveAt_grows (n + 1) _ site).ok h) hu
      simp only [resolveAt] at h ⊢
      obtain ⟨t₀, s, hget, h₁⟩ := bind_eq_ok_iff.1 h
      cases hget
      obtain ⟨c, s, hc, h₂⟩ := bind_eq_ok_iff.1 h₁
      obtain ⟨hc, rfl⟩ := ofExcept_eq_ok_iff.1 hc
      rw [bind_of_ok (get_apply u), htu.lookup hc, bind_of_ok (ofExcept_ok c u)]
      cases hi : c.typeParamIndex? name with
      | none => simp only [hi] at h₂; cases h₂
      | some index =>
        simp only [hi] at h₂ ⊢
        obtain ⟨params, s, hp, h₃⟩ := bind_eq_ok_iff.1 h₂
        obtain ⟨hp, rfl⟩ := ofExcept_eq_ok_iff.1 hp
        rw [htu.collectParameters hp, bind_of_ok (ofExcept_ok params u)]
        cases ha : params[index]? with
        | none => simp only [ha] at h₃ ⊢; exact eraseBound_replays n c index _ _ _ u h₃ hu
        | some arg =>
          simp only [ha] at h₃ ⊢
          by_cases hself : arg = .var owner name
          · simp only [hself, if_true] at h₃ ⊢; exact eraseBound_replays n c index _ _ _ u h₃ hu
          · simp only [hself, if_false] at h₃ ⊢; exact ih arg _ _ _ u h₃ hu
    | array component =>
      simp only [resolveAt]
      refine Replays.bind Within.trans (ih component) (fun c => ?_) fun c => ?_
      · exact Replays.bind Within.trans (arrayOf_replays c) (fun _ => Replays.pure _)
          fun _ => Moves.pure Within.refl _
      · exact Moves.bind Within.trans (arrayOf_grows c) fun _ => Moves.pure Within.refl _

theorem resolve_replays (ty site : TypeExpr) : Replays Within (ClassTable.resolve ty site) :=
  resolveAt_replays _ ty site

end ClassTable
end Introspect
