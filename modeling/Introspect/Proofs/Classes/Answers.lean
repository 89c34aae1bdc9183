import Introspect.Classes.Declaration
import Introspect.Proofs.Classes.Assignability

/-!
Answers of a growing class table.

Classes are defined and declared and array classes are made, in any order. What was answered before is
answered again. Resolution is a case apart, as it makes array classes itself: an answer stands in every
table that grows from the one resolution left behind. In a table that grew from the one before, someone
else may have put a class where resolution would have made an array class, and a search can run through
that class.

* `Addition`, `grown`: how a table grows.
* `Mirrors`: an answer is given again beside a table with other classes in the places of array classes.
* `resolve_mirrors`: so it is with resolution.
* `answers_persist`: which answers stand when a table grows.
* `resolution_diverted`: an answer that does not.
-/

namespace Introspect

namespace ClassTable

/-! ## Growth -/

inductive Addition where
  | define (c : Class)
  | declare (d : Declaration)
  | arrayOf (component : TypeExpr)

def Addition.applyTo (t : ClassTable) : Addition → Except Error ClassTable
  | .define c => t.define c
  | .declare d =>
    match d.build with
    | .ok c => t.define c
    | .error e => .error e
  | .arrayOf component =>
    match ClassTable.arrayOf component t with
    | .ok _ u => .ok u
    | .error e _ => .error e

/-- The table after all these additions, when each of them succeeds. -/
def grown (t : ClassTable) (additions : List Addition) : Except Error ClassTable :=
  additions.foldlM Addition.applyTo t

theorem Addition.applyTo_within {t u : ClassTable} {a : Addition} (h : a.applyTo t = .ok u) :
    t.Within u := by
  cases a with
  | define c => exact define_grows h
  | declare d =>
    simp only [applyTo] at h
    cases hb : d.build with
    | error e => rw [hb] at h; cases h
    | ok c =>
      rw [hb] at h
      exact define_grows h
  | arrayOf component =>
    simp only [applyTo] at h
    cases ha : ClassTable.arrayOf component t with
    | error e s => rw [ha] at h; cases h
    | ok id s =>
      rw [ha] at h
      cases h
      exact (arrayOf_grows component).ok ha

theorem grown_within {t u : ClassTable} {additions : List Addition}
    (h : t.grown additions = .ok u) : t.Within u := by
  induction additions generalizing t with
  | nil => cases h; exact Within.refl _
  | cons a as ih =>
    unfold grown at h
    rw [List.foldlM_cons] at h
    cases ha : a.applyTo t with
    | error e => rw [ha] at h; cases h
    | ok s =>
      rw [ha] at h
      exact Within.trans _ _ _ (a.applyTo_within ha) (ih h)

/-! ## Tables side by side -/

/-- No search tells the classes apart that the two tables have under one id. -/
def Agrees (s u : ClassTable) : Prop :=
  ∀ id c d, s.find? id = some c → u.find? id = some d → c.SameScope d

theorem Within.agrees {s u : ClassTable} (h : s.Within u) : s.Agrees u := by
  intro id c d hc hd
  rw [h id c hc] at hd
  exact Option.some.inj hd ▸ Class.SameScope.refl c

/-- A table `x` that grows into `s`, and one beside it that knows as much and agrees with `s`. -/
structure Beside (s x y : ClassTable) : Prop where
  covers : ∀ id, x.contains id = true → y.contains id = true
  agrees : s.Agrees y

namespace Beside

variable {s x y : ClassTable}

theorem lookup (h : Beside s x y) (hx : x.Within s) {id : ClassId} {c : Class}
    (hc : x.lookup id = .ok c) : ∃ d, y.lookup id = .ok d ∧ c.SameScope d := by
  have hfound := lookup_eq_ok_iff.1 hc
  obtain ⟨d, hd⟩ := contains_iff.1 (h.covers id (contains_iff.2 ⟨c, hfound⟩))
  exact ⟨d, lookup_eq_ok_iff.2 hd, h.agrees id c d (hx id c hfound) hd⟩

theorem searchParameters (h : Beside s x y) (hx : x.Within s) {target : ClassId} {n : Nat}
    {ty : TypeExpr} {args : List TypeExpr} (hs : x.searchParameters target n ty = .ok args) :
    y.searchParameters target n ty = .ok args := by
  refine searchParameters_of_lookup (P := fun _ => True) (fun ty raw inner c _ _ hc => ?_) trivial hs
  obtain ⟨d, hd, hcd⟩ := h.lookup hx hc
  exact ⟨d, hd, hcd, fun _ _ => trivial⟩

theorem intern (h : Beside s x y) {c : Class} (hc : (x.intern c).Within s) :
    Beside s (x.intern c) (y.intern c) where
  covers id hid := by
    by_cases hc : c.id = id
    · subst hc
      exact contains_intern y c
    · refine (intern_grows y c).contains (h.covers id ?_)
      unfold ClassTable.intern at hid
      split at hid
      · exact hid
      · unfold contains at hid ⊢
        rw [find?_cons_of_ne hc] at hid
        exact hid
  agrees id e d he hd := by
    unfold ClassTable.intern at hd
    split at hd
    · exact h.agrees id e d he hd
    · next hy =>
      by_cases hid : c.id = id
      · -- neither table had the class, so both have this one now
        have hx : ¬ x.contains c.id = true := fun hx => hy (h.covers _ hx)
        have hcs : s.find? id = some c := by
          refine hc id c ?_
          unfold ClassTable.intern
          rw [if_neg hx]
          simp [find?, hid]
        have hcd : c = d := by simpa [find?, hid] using hd
        rw [hcs] at he
        cases he
        exact hcd ▸ Class.SameScope.refl c
      · rw [find?_cons_of_ne hid] at hd
        exact h.agrees id e d he hd

end Beside

/-! ## Answers given beside -/

/-- What the computation answers on its way to `s` it answers beside as well. -/
def Mirrors {α : Type} (s : ClassTable) (f : TableM α) : Prop :=
  ∀ x a x' y, f x = .ok a x' → x'.Within s → Beside s x y → ∃ y', f y = .ok a y' ∧ Beside s x' y'

namespace Mirrors

variable {α β : Type} {s : ClassTable}

theorem pure (a : α) : Mirrors s (pure a) := by
  intro x b x' y h _ hy
  cases h
  exact ⟨y, rfl, hy⟩

theorem throw (e : Error) : Mirrors s (throw e : TableM α) := by
  intro x b x' y h
  cases h

theorem bind {f : TableM α} {g : α → TableM β} (hf : Mirrors s f) (hg : ∀ a, Mirrors s (g a))
    (hm : ∀ a, Moves Within (g a)) : Mirrors s (f >>= g) := by
  intro x b x' y h hx hy
  obtain ⟨a, x₁, ha, hb⟩ := bind_eq_ok_iff.1 h
  have hx₁ : x₁.Within s := Within.trans _ _ _ ((hm a).ok hb) hx
  obtain ⟨y₁, hya, hy₁⟩ := hf x a x₁ y ha hx₁ hy
  obtain ⟨y', hyb, hy'⟩ := hg a x₁ b x' y₁ hb hx hy₁
  exact ⟨y', bind_eq_ok_iff.2 ⟨a, y₁, hya, hyb⟩, hy'⟩

theorem mapM {f : α → TableM β} (hf : ∀ a, Mirrors s (f a)) (hm : ∀ a, Moves Within (f a))
    (as : List α) : Mirrors s (as.mapM f) := by
  induction as with
  | nil => exact pure []
  | cons a as ih =>
    rw [List.mapM_cons]
    refine bind (hf a) (fun b => ?_) fun b => ?_
    · exact bind ih (fun _ => pure _) fun _ => Moves.pure Within.refl _
    · exact Moves.bind Within.trans (Moves.mapM Within.refl Within.trans fun a _ => hm a) fun _ =>
        Moves.pure Within.refl _

end Mirrors

section Resolution

variable (s : ClassTable)

theorem arrayOf_mirrors (component : TypeExpr) : Mirrors s (arrayOf component) := by
  intro x id x' y h hx hy
  obtain ⟨rfl, rfl, hraw⟩ := arrayOf_eq_ok h
  have hxs : x.Within s := Within.trans _ _ _ (intern_grows x _) hx
  refine ⟨y.intern (arrayClass component), arrayOf_of_found fun raw hr => ?_, hy.intern hx⟩
  obtain ⟨c, hc⟩ := hraw raw hr
  obtain ⟨d, hd, -⟩ := hy.lookup hxs hc
  exact ⟨d, lookup_eq_ok_iff.1 hd⟩

/-- The array class of a component that is computed. -/
theorem arrayType_mirrors {f : TableM TypeExpr} (hf : Mirrors s f) :
    Mirrors s (do let c ← f; return TypeExpr.named (← arrayOf c)) := by
  refine Mirrors.bind hf (fun c => ?_) fun c => ?_
  · exact Mirrors.bind (arrayOf_mirrors s c) (fun _ => Mirrors.pure _) fun _ =>
      Moves.pure Within.refl _
  · exact Moves.bind Within.trans (arrayOf_grows c) fun _ => Moves.pure Within.refl _

theorem eraseAt_mirrors (n : Nat) (ty : TypeExpr) : Mirrors s (eraseAt n ty) := by
  induction n generalizing ty with
  | zero => exact Mirrors.throw _
  | succ n ih =>
    cases ty with
    | named id => exact Mirrors.pure _
    | apply raw args => exact Mirrors.pure _
    | wildcard lower upper =>
      cases upper with
      | nil => exact Mirrors.pure _
      | cons bound rest => exact ih bound
    | var owner name =>
      intro x r x' y h hx hy
      have hxs : x.Within s := Within.trans _ _ _ ((eraseAt_grows (n + 1) _).ok h) hx
      simp only [eraseAt] at h ⊢
      obtain ⟨x₀, x₁, hget, h₁⟩ := bind_eq_ok_iff.1 h
      cases hget
      obtain ⟨c, x₁, hc, h₂⟩ := bind_eq_ok_iff.1 h₁
      obtain ⟨hc, rfl⟩ := ofExcept_eq_ok_iff.1 hc
      obtain ⟨d, hd, hcd⟩ := hy.lookup hxs hc
      rw [bind_of_ok (get_apply y), hd, bind_of_ok (ofExcept_ok d y), ← hcd.typeParamIndex? name,
        ← hcd.typeParams]
      cases hb : (c.typeParamIndex? name).bind fun i => c.typeParams[i]?.bind (·.bounds.head?) with
      | some bound => simp only [hb] at h₂ ⊢; exact ih bound _ _ _ y h₂ hx hy
      | none => simp only [hb] at h₂ ⊢; cases h₂; exact ⟨y, rfl, hy⟩
    | array component => exact arrayType_mirrors s (ih component)

theorem eraseBound_mirrors (n : Nat) (c : Class) (index : Nat) :
    Mirrors s (eraseBound n c index) := by
  unfold eraseBound
  split
  · exact eraseAt_mirrors s n _
  · exact Mirrors.pure _

theorem resolveAt_mirrors (n : Nat) (ty site : TypeExpr) : Mirrors s (resolveAt n ty site) := by
  induction n generalizing ty with
  | zero => exact Mirrors.throw _
  | succ n ih =>
    cases ty with
    | named id => exact Mirrors.pure _
    | apply raw args =>
      exact Mirrors.bind (Mirrors.mapM ih (fun arg => resolveAt_grows n arg site) args)
        (fun _ => Mirrors.pure _) fun _ => Moves.pure Within.refl _
    | wildcard lower upper =>
      simp only [resolveAt]
      split
      · exact ih _
      · exact Mirrors.pure _
    | var owner name =>
      intro x r x' y h hx hy
      have hxs : x.Within s := Within.trans _ _ _ ((resolveAt_grows (n + 1) _ site).ok h) hx
      simp only [resolveAt] at h ⊢
      obtain ⟨x₀, x₁, hget, h₁⟩ := bind_eq_ok_iff.1 h
      cases hget
      obtain ⟨c, x₁, hc, h₂⟩ := bind_eq_ok_iff.1 h₁
      obtain ⟨hc, rfl⟩ := ofExcept_eq_ok_iff.1 hc
      obtain ⟨d, hd, hcd⟩ := hy.lookup hxs hc
      rw [bind_of_ok (get_apply y), hd, bind_of_ok (ofExcept_ok d y), ← hcd.typeParamIndex? name]
      cases hi : c.typeParamIndex? name with
      | none => simp only [hi] at h₂; cases h₂
      | some index =>
        simp only [hi] at h₂ ⊢
        obtain ⟨params, x₂, hp, h₃⟩ := bind_eq_ok_iff.1 h₂
        obtain ⟨hp, rfl⟩ := ofExcept_eq_ok_iff.1 hp
        have hpy : y.collectParameters site owner = .ok params := hy.searchParameters hxs hp
        rw [hpy, bind_of_ok (ofExcept_ok params y), ← eraseBound_congr hcd]
        cases ha : params[index]? with
        | none => simp only [ha] at h₃ ⊢; exact eraseBound_mirrors s n c index _ _ _ y h₃ hx hy
        | some arg =>
          simp only [ha] at h₃ ⊢
          by_cases hself : arg = .var owner name
          · simp only [hself, if_true] at h₃ ⊢
            exact eraseBound_mirrors s n c index _ _ _ y h₃ hx hy
          · simp only [hself, if_false] at h₃ ⊢
            exact ih arg _ _ _ y h₃ hx hy
    | array component => exact arrayType_mirrors s (ih component)

end Resolution

/-- An answer of resolution stands in a later table whose classes agree with those that resolution left
behind. -/
theorem resolve_mirrors {t s u : ClassTable} {ty site r : TypeExpr}
    (h : ClassTable.resolve ty site t = .ok r s) (htu : t.Within u) (hsu : s.Agrees u) :
    ∃ u', ClassTable.resolve ty site u = .ok r u' := by
  obtain ⟨u', hu', -⟩ := resolveAt_mirrors s _ ty site t r s u h (Within.refl s)
    ⟨fun _ => htu.contains, hsu⟩
  exact ⟨u', hu'⟩

/-! ## Answers -/

/-- Growing a table keeps the answers it gave: of resolution, in all that grows from the table resolution
left behind, and in all that grows from the table before unless a class came to stand in the place of an
array class and differs from it in parameters or supertypes; of parameter search, of complete closures
of supertypes, and of assignability where it holds. -/
theorem answers_persist {t u : ClassTable} {additions : List Addition}
    (h : t.grown additions = .ok u) :
    (∀ ty site r s, ClassTable.resolve ty site t = .ok r s →
      (∀ later v, s.grown later = .ok v → ClassTable.resolve ty site v = .ok r v) ∧
      (s.Agrees u → ∃ u', ClassTable.resolve ty site u = .ok r u')) ∧
    (∀ ty target params, t.collectParameters ty target = .ok params →
      u.collectParameters ty target = .ok params) ∧
    (∀ id cs, t.supertypes id = .ok cs → u.supertypes id = .ok cs) ∧
    ∀ target source, t.isAssignable target source = true → u.isAssignable target source = true := by
  have htu : t.Within u := grown_within h
  refine ⟨fun ty site r s hr => ⟨fun later v hv => ?_, resolve_mirrors hr htu⟩,
    fun _ _ _ => htu.collectParameters, fun _ _ => htu.supertypes, fun _ _ => htu.isAssignable⟩
  exact resolve_replays ty site t r s v hr (grown_within hv)

/-- An array class is made before it is asked for, and a class is declared that has nothing to do with
it. -/
theorem answers_persist_array :
    let additions : List Addition :=
      [.arrayOf (.named .string), .declare (.plain ⟨"Shelf"⟩)]
    let ty : TypeExpr := .mapOf (.array (.named .string)) (.var .list "E")
    let site : TypeExpr := .apply .arrayList [.named .string]
    let r : TypeExpr := .mapOf (.named ⟨"String[]"⟩) (.named .string)
    ∃ u, builtin.grown additions = .ok u ∧ (∃ u', ClassTable.resolve ty site u = .ok r u') ∧
      u.collectParameters site .list = .ok [.named .string] ∧
      u.isAssignable .list .arrayList = true := by
  intro additions ty site r
  let s : ClassTable := ⟨arrayClass (.named .string) :: builtin.classes⟩
  let shelf : Class := (Class.bare ⟨"Shelf"⟩ .plain).normalize
  have hu : builtin.grown additions = .ok ⟨shelf :: s.classes⟩ := rfl
  have hr : ClassTable.resolve ty site builtin = .ok r s := by
    have hs : after (ClassTable.resolve ty site) builtin = s := rfl
    rw [← hs]
    exact eq_ok_of_outcome (by decide +kernel)
  have hagrees : s.Agrees ⟨shelf :: s.classes⟩ := (within_cons (by decide +kernel)).agrees
  obtain ⟨hresolve, hparams, -, hassign⟩ := answers_persist hu
  exact ⟨_, hu, (hresolve ty site r s hr).2 hagrees, hparams site .list _ (by decide +kernel),
    hassign .list .arrayList (by decide +kernel)⟩

/-- A class in the place of an array class, through which a search finds another argument. -/
theorem resolution_diverted :
    let texts : Class :=
      { Class.bare ⟨"String[]"⟩ .plain with interfaces := [.listOf (.named ⟨"Integer"⟩)] }
    let ty : TypeExpr := .mapOf (.array (.named .string)) (.var .list "E")
    let site : TypeExpr := .named ⟨"String[]"⟩
    let r : TypeExpr := .mapOf (.named ⟨"String[]"⟩) .object
    ∃ u s, builtin.grown [.define texts] = .ok u ∧ ClassTable.resolve ty site builtin = .ok r s ∧
      outcome (ClassTable.resolve ty site) u =
        .ok (.mapOf (.named ⟨"String[]"⟩) (.named ⟨"Integer"⟩)) ∧
      ¬ ∃ u', ClassTable.resolve ty site u = .ok r u' := by
  intro texts ty site r
  let u : ClassTable := ⟨texts.normalize :: builtin.classes⟩
  have hu : builtin.grown [.define texts] = .ok u := rfl
  have hbefore : ClassTable.resolve ty site builtin = .ok r _ := eq_ok_of_outcome (by decide +kernel)
  have hafter : outcome (ClassTable.resolve ty site) u =
      .ok (.mapOf (.named ⟨"String[]"⟩) (.named ⟨"Integer"⟩)) := by decide +kernel
  refine ⟨u, _, hu, hbefore, hafter, fun ⟨u', h⟩ => ?_⟩
  rw [outcome_of_ok h] at hafter
  exact absurd hafter (by decide)

end ClassTable
end Introspect
