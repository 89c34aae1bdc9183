import Introspect.Proofs.Classes.Ancestry
import Introspect.Proofs.Classes.Answers
import Introspect.Proofs.Types.Substitution

/-!
Open types in their own scope.

A type with variables is resolved with itself as the site, so its own arguments may supply the variables that
they mention.

* `resolveAt_erasable`: where nothing is supplied, every seen variable becomes the erasure of its first bound,
  every wildcard its bound and every array its array class.
* `not_walks_of_resolveAt`: variables that lead into each other in a circle have no answer.
* `resolveAt_stands`: in an answer every seen variable is replaced by what it stands for at the site.
* `resolve_open`: the three for a type in its own scope.
* `nested_variable_unresolved`: a list of lists of its own items has no answer.
-/

namespace Introspect

open Relation

/-! ## Heights -/

namespace TypeExpr

theorem height_pos (ty : TypeExpr) : 0 < ty.height := by
  cases ty <;> simp [height]

theorem height_le_of_mem {ty : TypeExpr} {tys : List TypeExpr} (h : ty ∈ tys) :
    ty.height ≤ heightOfAll tys :=
  heightOfAll_le_iff.1 (Nat.le_refl _) ty h

/-- The bound of a wildcard that counts is lower than the wildcard. -/
theorem height_lt_wildcard {lower upper : List TypeExpr} {bound : TypeExpr}
    (h : lower.head?.or upper.head? = some bound) : bound.height < (wildcard lower upper).height := by
  have hmem : bound ∈ lower ∨ bound ∈ upper := by
    cases lower with
    | cons b lower =>
      cases h
      exact .inl List.mem_cons_self
    | nil => exact .inr (List.mem_of_head? h)
  simp only [height]
  rcases hmem with hmem | hmem
  · have hle := height_le_of_mem hmem
    omega
  · have hle := height_le_of_mem hmem
    omega

end TypeExpr

namespace ClassTable

/-! ## Erasures -/

/-- More levels than are needed change no erasure. -/
theorem eraseAt_mono {n k : Nat} (hk : n ≤ k) {ty r : TypeExpr} {t t' : ClassTable}
    (h : eraseAt n ty t = .ok r t') : eraseAt k ty t = .ok r t' := by
  induction n generalizing k ty t r t' with
  | zero => cases h
  | succ n ih =>
    obtain ⟨k, rfl⟩ : ∃ j, k = j + 1 := ⟨k - 1, by omega⟩
    have hk : n ≤ k := by omega
    cases ty with
    | named id => exact h
    | apply raw args => exact h
    | wildcard lower upper =>
      cases upper with
      | nil => exact h
      | cons bound rest => exact ih hk h
    | var owner name =>
      simp only [eraseAt] at h ⊢
      obtain ⟨t₀, s, hget, h₁⟩ := bind_eq_ok_iff.1 h
      cases hget
      obtain ⟨c, s, hc, h₂⟩ := bind_eq_ok_iff.1 h₁
      obtain ⟨hc, rfl⟩ := ofExcept_eq_ok_iff.1 hc
      rw [bind_of_ok (get_apply s), hc, bind_of_ok (ofExcept_ok c s)]
      cases hb : (c.typeParamIndex? name).bind fun i => c.typeParams[i]?.bind (·.bounds.head?) with
      | some bound =>
        simp only [hb] at h₂ ⊢
        exact ih hk h₂
      | none =>
        simp only [hb] at h₂ ⊢
        exact h₂
    | array component =>
      simp only [eraseAt] at h ⊢
      obtain ⟨c, s, hc, h₁⟩ := bind_eq_ok_iff.1 h
      rw [bind_of_ok (ih hk hc)]
      exact h₁

theorem eraseBound_mono {n k : Nat} (hk : n ≤ k) {c : Class} {i : Nat} {r : TypeExpr}
    {t t' : ClassTable} (h : eraseBound n c i t = .ok r t') : eraseBound k c i t = .ok r t' := by
  unfold eraseBound at h ⊢
  cases hb : c.typeParams[i]?.bind (·.bounds.head?) with
  | some bound =>
    simp only [hb] at h ⊢
    exact eraseAt_mono hk h
  | none =>
    simp only [hb] at h ⊢
    exact h

/-- The levels allowed for an erasure do not tell on its answer. -/
theorem eraseBound_unique {n k : Nat} {c : Class} {i : Nat} {r r' : TypeExpr} {t s s' : ClassTable}
    (h : eraseBound n c i t = .ok r s) (h' : eraseBound k c i t = .ok r' s') : r = r' := by
  have hmax := (eraseBound_mono (Nat.le_max_left n k) h).symm.trans
    (eraseBound_mono (Nat.le_max_right n k) h')
  cases hmax
  rfl

/-- Array classes look the same to every search. -/
theorem Extends.agrees {t s u : ClassTable} (hs : t.Extends s) (hu : t.Extends u) : s.Agrees u := by
  intro id c d hc hd
  rcases hs.arrays id c hc with hct | ⟨component, rfl⟩
  · cases (hu.within id c hct).symm.trans hd
    exact .refl c
  · rcases hu.arrays id d hd with hdt | ⟨component', rfl⟩
    · cases (hs.within id d hdt).symm.trans hc
      exact .refl _
    · exact ⟨(find?_id hc).trans (find?_id hd).symm, rfl, rfl⟩

/-- An erasure that some table has, every table with more array classes has as well. -/
theorem eraseBound_extends_ok {t s u : ClassTable} (hu : t.Extends u) {k : Nat} {c : Class} {i : Nat}
    {r : TypeExpr} (h : eraseBound k c i t = .ok r s) :
    ∃ u', eraseBound k c i u = .ok r u' ∧ ∀ id, s.contains id = true → u'.contains id = true := by
  have hts : t.Extends s := (eraseBound_extends k c i).ok h
  obtain ⟨u', hu', hbeside⟩ := eraseBound_mirrors s k c i t r s u h (Within.refl s)
    ⟨fun _ => hu.within.contains, hts.agrees hu⟩
  exact ⟨u', hu', hbeside.covers⟩

/-! ## What a site supplies -/

/-- The variable is the type parameter of a declared class at this place, and the site gives that class these
arguments. -/
structure Scoped (t : ClassTable) (site : TypeExpr) (v : ClassId × String) (c : Class) (i : Nat)
    (params : List TypeExpr) : Prop where
  found : t.find? v.1 = some c
  index : c.typeParamIndex? v.2 = some i
  collected : t.collectParameters site v.1 = .ok params

/-- The site gives the variable no argument, or the variable itself. -/
def Unsupplied (t : ClassTable) (site : TypeExpr) (v : ClassId × String) : Prop :=
  ∃ c i params, t.Scoped site v c i params ∧ ∀ arg, params[i]? = some arg → arg = .var v.1 v.2

/-- The site gives the variable an argument other than itself. -/
def Supplies (t : ClassTable) (site : TypeExpr) (v : ClassId × String) (arg : TypeExpr) : Prop :=
  ∃ c i params, t.Scoped site v c i params ∧ params[i]? = some arg ∧ arg ≠ .var v.1 v.2

/-- The second variable is seen in the argument that the site gives the first one. -/
def Leads (t : ClassTable) (site : TypeExpr) (v w : ClassId × String) : Prop :=
  ∃ arg, t.Supplies site v arg ∧ w ∈ arg.seen

section Supplied

variable {t u : ClassTable} {site r : TypeExpr} {v : ClassId × String} {c : Class} {i n : Nat}
  {params : List TypeExpr} {arg : TypeExpr} {t' : ClassTable}

theorem Scoped.within (htu : t.Within u) (h : t.Scoped site v c i params) :
    u.Scoped site v c i params :=
  ⟨htu _ _ h.found, h.index, htu.collectParameters h.collected⟩

theorem Supplies.within (htu : t.Within u) (h : t.Supplies site v arg) : u.Supplies site v arg := by
  obtain ⟨c, i, params, hscoped, hrest⟩ := h
  exact ⟨c, i, params, hscoped.within htu, hrest⟩

theorem Leads.within (htu : t.Within u) {w : ClassId × String} (h : t.Leads site v w) :
    u.Leads site v w := by
  obtain ⟨arg, hsupplies, hseen⟩ := h
  exact ⟨arg, hsupplies.within htu, hseen⟩

theorem Scoped.unique {d : Class} {j : Nat} {ps : List TypeExpr} (h : t.Scoped site v c i params)
    (h' : t.Scoped site v d j ps) : c = d ∧ i = j ∧ params = ps := by
  cases h.found.symm.trans h'.found
  cases h.index.symm.trans h'.index
  cases h.collected.symm.trans h'.collected
  exact ⟨rfl, rfl, rfl⟩

theorem Supplies.unique {arg' : TypeExpr} (h : t.Supplies site v arg) (h' : t.Supplies site v arg') :
    arg = arg' := by
  obtain ⟨c, i, params, hscoped, harg, -⟩ := h
  obtain ⟨d, j, ps, hscoped', harg', -⟩ := h'
  obtain ⟨rfl, rfl, rfl⟩ := hscoped.unique hscoped'
  exact Option.some.inj (harg.symm.trans harg')

theorem Unsupplied.not_supplies (h : t.Unsupplied site v) : ¬ t.Supplies site v arg := by
  rintro ⟨d, j, ps, hscoped', harg, hne⟩
  obtain ⟨c, i, params, hscoped, hself⟩ := h
  obtain ⟨rfl, rfl, rfl⟩ := hscoped.unique hscoped'
  exact hne (hself arg harg)

/-- A variable that is not supplied is erased. -/
theorem resolveAt_unsupplied (h : t.Scoped site v c i params)
    (hself : ∀ arg, params[i]? = some arg → arg = .var v.1 v.2) (n : Nat) :
    resolveAt (n + 1) (.var v.1 v.2) site t = eraseBound n c i t := by
  simp only [resolveAt]
  rw [bind_of_ok (get_apply t), lookup_eq_ok_iff.2 h.found, bind_of_ok (ofExcept_ok c t)]
  simp only [h.index]
  rw [h.collected, bind_of_ok (ofExcept_ok params t)]
  cases ha : params[i]? with
  | none => rfl
  | some arg => simp only [hself arg ha, if_true]

/-- A variable that is supplied is what its argument is. -/
theorem resolveAt_supplies (h : t.Supplies site v arg) (n : Nat) :
    resolveAt (n + 1) (.var v.1 v.2) site t = resolveAt n arg site t := by
  obtain ⟨c, i, params, hscoped, harg, hne⟩ := h
  simp only [resolveAt]
  rw [bind_of_ok (get_apply t), lookup_eq_ok_iff.2 hscoped.found, bind_of_ok (ofExcept_ok c t)]
  simp only [hscoped.index]
  rw [hscoped.collected, bind_of_ok (ofExcept_ok params t)]
  simp only [harg, hne, if_false]

/-- A variable with an answer has a place in the scope. -/
theorem scoped_of_resolveAt {owner : ClassId} {name : String}
    (h : resolveAt (n + 1) (.var owner name) site t = .ok r t') :
    ∃ c i params, t.Scoped site (owner, name) c i params := by
  simp only [resolveAt] at h
  obtain ⟨t₀, s, hget, h₁⟩ := bind_eq_ok_iff.1 h
  cases hget
  obtain ⟨c, s, hc, h₂⟩ := bind_eq_ok_iff.1 h₁
  obtain ⟨hc, rfl⟩ := ofExcept_eq_ok_iff.1 hc
  cases hi : c.typeParamIndex? name with
  | none => simp only [hi] at h₂; cases h₂
  | some i =>
    simp only [hi] at h₂
    obtain ⟨params, s, hp, -⟩ := bind_eq_ok_iff.1 h₂
    exact ⟨c, i, params, lookup_eq_ok_iff.1 hc, hi, (ofExcept_eq_ok_iff.1 hp).1⟩

/-- An answer for a variable is its erased bound or the answer for its argument. -/
theorem resolveAt_var_cases {owner : ClassId} {name : String}
    (h : resolveAt (n + 1) (.var owner name) site t = .ok r t') :
    (t.Unsupplied site (owner, name) ∧ ∃ c i params,
        t.Scoped site (owner, name) c i params ∧ eraseBound n c i t = .ok r t') ∨
      ∃ arg, t.Supplies site (owner, name) arg ∧ resolveAt n arg site t = .ok r t' := by
  obtain ⟨c, i, params, hscoped⟩ := scoped_of_resolveAt h
  by_cases hself : ∀ arg, params[i]? = some arg → arg = .var owner name
  · rw [resolveAt_unsupplied hscoped hself] at h
    exact .inl ⟨⟨c, i, params, hscoped, hself⟩, c, i, params, hscoped, h⟩
  · obtain ⟨arg, hnot⟩ := not_forall.1 hself
    obtain ⟨harg, hne⟩ := Classical.not_imp.1 hnot
    have hsupplies : t.Supplies site (owner, name) arg := ⟨c, i, params, hscoped, harg, hne⟩
    rw [resolveAt_supplies hsupplies] at h
    exact .inr ⟨arg, hsupplies, h⟩

end Supplied

/-! ## Erasing a type -/

/-- `β` is what the first bound of the variable erases to, within `k` levels; `s` is left behind. -/
def ErasesTo (t : ClassTable) (k : Nat) (v : ClassId × String) (r : TypeExpr) (s : ClassTable) : Prop :=
  ∃ c i, t.find? v.1 = some c ∧ c.typeParamIndex? v.2 = some i ∧ eraseBound k c i t = .ok r s

/-- The class of the expression is declared, or resolving the expression makes it. -/
def Present (t : ClassTable) (k : Nat) : TypeExpr → Prop
  | .named id => t.contains id = true
  | .apply raw _ => t.contains raw = true
  | .wildcard (bound :: _) _ => t.Present k bound
  | .wildcard [] (bound :: _) => t.Present k bound
  | .wildcard [] [] => t.contains .object = true
  | .var owner name => ∃ r s, t.ErasesTo k (owner, name) r s ∧ s.contains r.rawClass = true
  | .array _ => True

theorem present_wildcard {t : ClassTable} {k : Nat} {lower upper : List TypeExpr} {bound : TypeExpr}
    (hbound : lower.head?.or upper.head? = some bound) (h : t.Present k (.wildcard lower upper)) :
    t.Present k bound := by
  cases lower with
  | cons b lower =>
    cases hbound
    exact h
  | nil =>
    cases upper with
    | cons b upper =>
      cases hbound
      exact h
    | nil => cases hbound

/-- All that is seen of the expression can be erased: the variables are declared and their first bounds erase
to `β` within `k` levels, and the components of arrays have classes. -/
inductive Erasable (t : ClassTable) (k : Nat) (β : ClassId → String → TypeExpr) : TypeExpr → Prop
  | named (id : ClassId) : Erasable t k β (.named id)
  | apply (raw : ClassId) {args : List TypeExpr} (all : ∀ arg ∈ args, Erasable t k β arg) :
      Erasable t k β (.apply raw args)
  | bound {lower upper : List TypeExpr} {bound : TypeExpr}
      (counts : lower.head?.or upper.head? = some bound) (inner : Erasable t k β bound) :
      Erasable t k β (.wildcard lower upper)
  | unbounded : Erasable t k β (.wildcard [] [])
  | var {owner : ClassId} {name : String} {s : ClassTable}
      (erases : t.ErasesTo k (owner, name) (β owner name) s) : Erasable t k β (.var owner name)
  | array {component : TypeExpr} (inner : Erasable t k β component)
      (present : t.Present k component) : Erasable t k β (.array component)

section Erasable

variable {t s : ClassTable} {k : Nat} {β : ClassId → String → TypeExpr} {site : TypeExpr}

/-- A variable without an argument in the scope is resolved to the erasure of its bound, whose class is then
known if the erasure makes or finds it. -/
theorem resolveAt_var_erased {v : ClassId × String} {r : TypeExpr} {t' : ClassTable}
    (hs : t.Extends s) (herases : t.ErasesTo k v r t') (hfree : t.Unsupplied site v) {n : Nat}
    (hn : k ≤ n) :
    ∃ s', resolveAt (n + 1) (.var v.1 v.2) site s = .ok r s' ∧ r.collapse = r ∧
      (t.Present k (.var v.1 v.2) → s'.contains r.rawClass = true) := by
  obtain ⟨c, i, hc, hi, herase⟩ := herases
  obtain ⟨d, j, params, hscoped, hself⟩ := hfree
  cases hc.symm.trans hscoped.found
  cases hi.symm.trans hscoped.index
  obtain ⟨s', hs', hcovers⟩ := eraseBound_extends_ok hs (eraseBound_mono hn herase)
  rw [← resolveAt_unsupplied (hscoped.within hs.within) hself] at hs'
  obtain ⟨id, rfl⟩ := eraseBound_eq_named herase
  refine ⟨s', hs', rfl, ?_⟩
  rintro ⟨x, t'', ⟨d, j, hd, hj, herase'⟩, hcontains⟩
  cases hc.symm.trans hd
  cases hi.symm.trans hj
  cases herase.symm.trans herase'
  exact hcovers _ hcontains

/-- A parameterization is resolved argument by argument. -/
theorem resolveAt_apply_total {n : Nat} {raw : ClassId} {args : List TypeExpr} {g : TypeExpr → TypeExpr}
    (hargs : ∀ arg ∈ args, ∀ s, t.Extends s → ∃ s', resolveAt n arg site s = .ok (g arg) s')
    (hs : t.Extends s) :
    ∃ s', resolveAt (n + 1) (.apply raw args) site s = .ok (.apply raw (args.map g)) s' ∧ t.Extends s' := by
  have hext : ∀ arg ∈ args, ∀ s, t.Extends s →
      ∃ s', resolveAt n arg site s = .ok (g arg) s' ∧ t.Extends s' := by
    intro arg harg s hs
    obtain ⟨s', hs'⟩ := hargs arg harg s hs
    exact ⟨s', hs', Extends.trans _ _ _ hs ((resolveAt_extends n arg site).ok hs')⟩
  obtain ⟨s', hs', hts'⟩ := mapM_total hext hs
  refine ⟨s', ?_, hts'⟩
  simp only [resolveAt]
  rw [bind_of_ok hs']
  rfl

/-- Where the site supplies none of the variables that are seen, the expression is erased. -/
theorem resolveAt_erasable {ty : TypeExpr} (hty : Erasable t k β ty) {n : Nat}
    (hn : ty.height + k ≤ n) (hfree : ∀ v ∈ ty.seen, t.Unsupplied site v) (hs : t.Extends s) :
    ∃ s', resolveAt n ty site s = .ok (ty.subst β).collapse s' ∧ t.Extends s' ∧
      (t.Present k ty → s'.contains (ty.subst β).collapse.rawClass = true) := by
  -- the table that is left behind has only array classes more
  suffices h : ∃ s', resolveAt n ty site s = .ok (ty.subst β).collapse s' ∧
      (t.Present k ty → s'.contains (ty.subst β).collapse.rawClass = true) by
    obtain ⟨s', hs', hpresent⟩ := h
    exact ⟨s', hs', Extends.trans _ _ _ hs ((resolveAt_extends n ty site).ok hs'), hpresent⟩
  induction n generalizing ty s with
  | zero =>
    have hpos := ty.height_pos
    omega
  | succ n ih =>
    cases hty with
    | named id => exact ⟨s, rfl, hs.within.contains⟩
    | unbounded => exact ⟨s, rfl, hs.within.contains⟩
    | @apply raw args all =>
      have hargs : ∀ arg ∈ args, ∀ s, t.Extends s →
          ∃ s', resolveAt n arg site s = .ok (arg.subst β).collapse s' := by
        intro arg harg s hs
        have hle := TypeExpr.height_le_of_mem harg
        simp only [TypeExpr.height] at hn
        obtain ⟨s', hs', -⟩ := ih (all arg harg) (by omega)
          (fun v hv => hfree v (TypeExpr.mem_seenInAll.2 ⟨arg, harg, hv⟩)) hs
        exact ⟨s', hs'⟩
      obtain ⟨s', hs', hext⟩ := resolveAt_apply_total hargs hs
      rw [TypeExpr.subst, TypeExpr.collapse, TypeExpr.substAll_eq_map, TypeExpr.collapseAll_eq_map,
        List.map_map]
      exact ⟨s', hs', fun hraw => hext.within.contains hraw⟩
    | @bound lower upper bound counts inner =>
      have hlt := TypeExpr.height_lt_wildcard counts
      have hseen : (TypeExpr.wildcard lower upper).seen = bound.seen := by
        rw [TypeExpr.seen_wildcard, counts, Option.map_some, Option.getD_some]
      obtain ⟨s', hs', hpresent⟩ := ih inner (by omega) (hseen ▸ hfree) hs
      have hcollapse := TypeExpr.collapse_subst_wildcard β lower upper
      simp only [counts] at hcollapse
      rw [hcollapse]
      refine ⟨s', ?_, fun h => hpresent (present_wildcard counts h)⟩
      simp only [resolveAt, counts]
      exact hs'
    | @var owner name t' erases =>
      have hfreev := hfree (owner, name) (List.mem_singleton_self _)
      simp only [TypeExpr.height] at hn
      obtain ⟨s', hs', hcollapse, hpresent⟩ :=
        resolveAt_var_erased hs erases hfreev (n := n) (by omega)
      rw [TypeExpr.subst, hcollapse]
      exact ⟨s', hs', hpresent⟩
    | @array component inner present =>
      simp only [TypeExpr.height] at hn
      obtain ⟨s₁, hs₁, hpresent⟩ := ih inner (by omega) hfree hs
      have hfound : ∀ raw, (component.subst β).collapse.raw? = some raw → ∃ c, s₁.find? raw = some c := by
        intro raw hraw
        have hcontains := hpresent present
        rw [TypeExpr.rawClass, hraw] at hcontains
        exact contains_iff.1 hcontains
      refine ⟨_, ?_, fun _ => contains_intern s₁ (arrayClass (component.subst β).collapse)⟩
      simp only [resolveAt]
      rw [bind_of_ok hs₁, bind_of_ok (arrayOf_of_found hfound)]
      rfl

end Erasable

/-! ## What an answer is made of -/

/-- `x` is what the variable stands for at the site: the erasure of its first bound where the site supplies
nothing, else what its argument becomes when every variable seen there is replaced by what it stands for. -/
inductive StandsFor (t : ClassTable) (site : TypeExpr) : ClassId × String → TypeExpr → Prop
  | bound {v : ClassId × String} {k : Nat} {x : TypeExpr} {s : ClassTable}
      (free : t.Unsupplied site v) (erases : t.ErasesTo k v x s) : StandsFor t site v x
  | argument {v : ClassId × String} {arg : TypeExpr} (γ : ClassId → String → TypeExpr)
      (supplies : t.Supplies site v arg) (inner : ∀ w ∈ arg.seen, StandsFor t site w (γ w.1 w.2)) :
      StandsFor t site v (arg.subst γ).collapse

section StandsFor

variable {t : ClassTable} {site : TypeExpr}

theorem ErasesTo.unique {k n : Nat} {v : ClassId × String} {x y : TypeExpr} {s s' : ClassTable}
    (h : t.ErasesTo k v x s) (h' : t.ErasesTo n v y s') : x = y := by
  obtain ⟨c, i, hc, hi, hx⟩ := h
  obtain ⟨d, j, hd, hj, hy⟩ := h'
  cases hc.symm.trans hd
  cases hi.symm.trans hj
  exact eraseBound_unique hx hy

/-- A variable stands for one type only. -/
theorem StandsFor.unique {v : ClassId × String} {x y : TypeExpr} (h : t.StandsFor site v x)
    (h' : t.StandsFor site v y) : x = y := by
  induction h generalizing y with
  | bound free erases =>
    cases h' with
    | bound free' erases' => exact erases.unique erases'
    | argument γ' supplies' inner' => exact absurd supplies' free.not_supplies
  | argument γ supplies inner ih =>
    cases h' with
    | bound free' erases' => exact absurd supplies free'.not_supplies
    | argument γ' supplies' inner' =>
      cases supplies.unique supplies'
      exact TypeExpr.collapse_subst_congr _ fun w hw => ih w hw (inner' w hw)

/-- Something every seen variable stands for can be chosen for all of them at once. -/
theorem exists_reading {ty : TypeExpr} (h : ∀ v ∈ ty.seen, ∃ x, t.StandsFor site v x) :
    ∃ γ : ClassId → String → TypeExpr, ∀ v ∈ ty.seen, t.StandsFor site v (γ v.1 v.2) := by
  classical
  refine ⟨fun owner name =>
    if hx : ∃ x, t.StandsFor site (owner, name) x then hx.choose else .object, fun v hv => ?_⟩
  have hx := h v hv
  simp only [hx, dif_pos]
  exact hx.choose_spec

/-- What was answered for arguments is answered again for each of them over the table left behind. -/
theorem resolveAt_each {n : Nat} {args as : List TypeExpr} {s : ClassTable}
    (h : args.mapM (fun arg => resolveAt n arg site) s = .ok as t) :
    (∀ arg ∈ args, ∃ a, resolveAt n arg site t = .ok a t) ∧
      ∀ g : TypeExpr → TypeExpr,
        (∀ arg ∈ args, ∀ a, resolveAt n arg site t = .ok a t → a = g arg) → as = args.map g :=
  Replays.each Within.refl Within.trans (fun arg => resolveAt_replays n arg site)
    (fun arg => resolveAt_grows n arg site) h (Within.refl t)

/-- So it does for the component of an array. -/
theorem resolveAt_component {n : Nat} {component r : TypeExpr} {s : ClassTable}
    (h : resolveAt (n + 1) (.array component) site s = .ok r t) :
    ∃ c, resolveAt n component site t = .ok c t ∧ r = .named (arrayId c) := by
  obtain ⟨c, s₁, id, hc, hid, rfl⟩ := arrayType_eq_ok h
  have hwithin : s₁.Within t := (arrayOf_grows c).ok hid
  exact ⟨c, resolveAt_replays n component site _ _ _ _ hc hwithin, by rw [(arrayOf_eq_ok hid).1]⟩

/-- From variables that are seen in a resolved expression the site leads on less often than there are
levels. -/
theorem not_walks_of_resolveAt {n : Nat} {ty r : TypeExpr} (h : resolveAt n ty site t = .ok r t) :
    ∀ v ∈ ty.seen, ¬ Walks (t.Leads site) n v := by
  induction n generalizing ty r with
  | zero => cases h
  | succ n ih =>
    intro v hv hwalk
    cases ty with
    | named id => cases hv
    | apply raw args =>
      obtain ⟨as, has, rfl⟩ := resolveAt_apply_eq_ok h
      obtain ⟨arg, harg, hseen⟩ := TypeExpr.mem_seenInAll.1 hv
      obtain ⟨a, ha⟩ := (resolveAt_each has).1 arg harg
      exact ih ha v hseen hwalk.pred
    | wildcard lower upper =>
      simp only [resolveAt] at h
      rw [TypeExpr.seen_wildcard] at hv
      cases hbound : lower.head?.or upper.head? with
      | none =>
        rw [hbound] at hv
        cases hv
      | some bound =>
        simp only [hbound] at h hv
        exact ih h v hv hwalk.pred
    | var owner name =>
      cases List.mem_singleton.1 hv
      obtain ⟨w, ⟨arg, hsupplies, hseen⟩, hrest⟩ := hwalk
      rcases resolveAt_var_cases h with ⟨hfree, -⟩ | ⟨arg', hsupplies', h⟩
      · exact hfree.not_supplies hsupplies
      · cases hsupplies.unique hsupplies'
        exact ih h w hseen hrest
    | array component =>
      obtain ⟨c, hc, -⟩ := resolveAt_component h
      exact ih hc v hv hwalk.pred

/-- A resolved variable stands for the answer. -/
theorem stands_of_resolveAt {n : Nat} {owner : ClassId} {name : String} {r : TypeExpr}
    (h : resolveAt (n + 1) (.var owner name) site t = .ok r t)
    (hargs : ∀ arg, resolveAt n arg site t = .ok r t → (∀ v ∈ arg.seen, ∃ x, t.StandsFor site v x) ∧
      ∀ γ : ClassId → String → TypeExpr, (∀ v ∈ arg.seen, t.StandsFor site v (γ v.1 v.2)) →
        r = (arg.subst γ).collapse) : t.StandsFor site (owner, name) r := by
  rcases resolveAt_var_cases h with ⟨hfree, c, i, params, hscoped, herase⟩ | ⟨arg, hsupplies, h⟩
  · exact .bound hfree ⟨c, i, hscoped.found, hscoped.index, herase⟩
  · obtain ⟨hsome, hread⟩ := hargs arg h
    obtain ⟨γ, hγ⟩ := exists_reading hsome
    rw [hread γ hγ]
    exact .argument γ hsupplies hγ

/-- Every variable that is seen in a resolved expression stands for something, and the answer is the expression
with what they stand for. -/
theorem resolveAt_stands {n : Nat} {ty r : TypeExpr} (h : resolveAt n ty site t = .ok r t) :
    (∀ v ∈ ty.seen, ∃ x, t.StandsFor site v x) ∧
      ∀ γ : ClassId → String → TypeExpr, (∀ v ∈ ty.seen, t.StandsFor site v (γ v.1 v.2)) →
        r = (ty.subst γ).collapse := by
  induction n generalizing ty r with
  | zero => cases h
  | succ n ih =>
    cases ty with
    | named id =>
      cases h
      exact ⟨fun v hv => (by cases hv), fun γ _ => rfl⟩
    | apply raw args =>
      obtain ⟨as, has, rfl⟩ := resolveAt_apply_eq_ok h
      obtain ⟨heach, hmap⟩ := resolveAt_each has
      refine ⟨fun v hv => ?_, fun γ hγ => ?_⟩
      · obtain ⟨arg, harg, hseen⟩ := TypeExpr.mem_seenInAll.1 hv
        obtain ⟨a, ha⟩ := heach arg harg
        exact (ih ha).1 v hseen
      · have has' : as = args.map fun arg => (arg.subst γ).collapse := by
          refine hmap _ fun arg harg a ha => (ih ha).2 γ fun v hv => ?_
          exact hγ v (TypeExpr.mem_seenInAll.2 ⟨arg, harg, hv⟩)
        rw [has', TypeExpr.subst, TypeExpr.collapse, TypeExpr.substAll_eq_map,
          TypeExpr.collapseAll_eq_map, List.map_map]
        rfl
    | wildcard lower upper =>
      simp only [resolveAt] at h
      rw [TypeExpr.seen_wildcard]
      simp only [TypeExpr.collapse_subst_wildcard]
      cases hbound : lower.head?.or upper.head? with
      | none =>
        simp only [hbound] at h
        cases h
        exact ⟨fun v hv => (by cases hv), fun γ _ => rfl⟩
      | some bound =>
        simp only [hbound] at h
        exact ih h
    | var owner name =>
      have hconcrete : r.collapse = r :=
        TypeExpr.collapse_of_isConcrete r (resolveAt_resolved h).concrete
      have hstands : t.StandsFor site (owner, name) r := stands_of_resolveAt h fun arg harg => ih harg
      refine ⟨fun v hv => ?_, fun γ hγ => ?_⟩
      · rw [List.mem_singleton.1 hv]
        exact ⟨r, hstands⟩
      · have hsame := hstands.unique (hγ (owner, name) (List.mem_singleton_self _))
        rw [TypeExpr.subst, ← hsame, hconcrete]
    | array component =>
      obtain ⟨c, hc, rfl⟩ := resolveAt_component h
      obtain ⟨hsome, hread⟩ := ih hc
      exact ⟨hsome, fun γ hγ => by rw [hread γ hγ]; rfl⟩

end StandsFor

/-! ## A type in its own scope -/

/-- A type of `depthLimit + 1` levels at most, with the levels of its erasures, is resolved in its own scope to
itself with every seen variable erased, every wildcard replaced by its bound and every array by its array
class, if it supplies none of these variables or just the variable itself. A type whose seen variables lead
into a circle has no answer. And what is answered is the type with every seen variable replaced by what it
stands for. -/
theorem resolve_open (t : ClassTable) (ty : TypeExpr) :
    (∀ k β, Erasable t k β ty → ty.height + k ≤ depthLimit + 1 →
      (∀ v ∈ ty.seen, t.Unsupplied ty v) → ∃ t', resolve ty ty t = .ok (ty.subst β).collapse t') ∧
    (∀ v ∈ ty.seen, Circles (t.Leads ty) v → ∀ r t', resolve ty ty t ≠ .ok r t') ∧
    (∀ r t', resolve ty ty t = .ok r t' →
      (∀ v ∈ ty.seen, ∃ x, t'.StandsFor ty v x) ∧
        ∀ γ : ClassId → String → TypeExpr, (∀ v ∈ ty.seen, t'.StandsFor ty v (γ v.1 v.2)) →
          r = (ty.subst γ).collapse) := by
  refine ⟨fun k β hty hheight hfree => ?_, fun v hv hcircle r t' h => ?_, fun r t' h => ?_⟩
  · obtain ⟨t', ht', -⟩ := resolveAt_erasable hty hheight hfree (Extends.refl t)
    exact ⟨t', ht'⟩
  · have hlater := resolve_replays ty ty _ _ _ _ h (Within.refl t')
    have hleads : Circles (t'.Leads ty) v :=
      hcircle.mono fun _ _ hvw => hvw.within ((resolve_grows ty ty).ok h)
    exact not_walks_of_resolveAt hlater v hv (hleads.walks _)
  · exact resolveAt_stands (resolve_replays ty ty _ _ _ _ h (Within.refl t'))

/-- A variable in its own place and one that the site knows nothing of, the latter in an array below a
wildcard. -/
theorem resolve_open_map :
    let array : TypeExpr := .array (.var .list "E")
    let ty : TypeExpr := .mapOf (.var .map "K") (.extending array)
    let β : ClassId → String → TypeExpr := fun _ _ => .object
    Erasable builtin 0 β ty ∧ (∀ v ∈ ty.seen, builtin.Unsupplied ty v) ∧
      ∃ t', resolve ty ty builtin = .ok (.mapOf .object (.named ⟨"Object[]"⟩)) t' := by
  intro array ty β
  have hkey : builtin.ErasesTo 0 (.map, "K") .object builtin := ⟨_, 0, rfl, rfl, rfl⟩
  have hitem : builtin.ErasesTo 0 (.list, "E") .object builtin := ⟨_, 0, rfl, rfl, rfl⟩
  have harray : Erasable builtin 0 β array := .array (.var hitem) ⟨_, _, hitem, rfl⟩
  have hty : Erasable builtin 0 β ty := by
    refine .apply .map fun arg harg => ?_
    rcases List.mem_cons.1 harg with rfl | harg
    · exact .var hkey
    · rw [List.mem_singleton.1 harg]
      exact .bound rfl harray
  have hfree : ∀ v ∈ ty.seen, builtin.Unsupplied ty v := by
    intro v hv
    have hseen : ty.seen = [(.map, "K"), (.list, "E")] := rfl
    rw [hseen, List.mem_cons, List.mem_singleton] at hv
    rcases hv with rfl | rfl
    · refine ⟨_, 0, _, ⟨rfl, rfl, rfl⟩, fun arg harg => ?_⟩
      exact (Option.some.inj harg).symm
    · refine ⟨_, 0, [], ⟨rfl, rfl, rfl⟩, fun arg harg => ?_⟩
      cases harg
  exact ⟨hty, hfree, (resolve_open builtin ty).1 0 β hty (by decide) hfree⟩

/-- A list of lists of its own items: the variable is supplied with a list of itself. -/
theorem nested_variable_unresolved :
    let ty : TypeExpr := .listOf (.listOf (.var .list "E"))
    let β : ClassId → String → TypeExpr := fun _ _ => .object
    ty.height ≤ 30 ∧ Erasable builtin 0 β ty ∧
      (ty.subst β).collapse = .listOf (.listOf .object) ∧
      outcome (resolve ty ty) builtin =
        .error (.internal (.resolutionDepth (.listOf (.var .list "E")) ty)) ∧
      ∀ r t', resolve ty ty builtin ≠ .ok r t' := by
  intro ty β
  have hitem : builtin.ErasesTo 0 (.list, "E") .object builtin := ⟨_, 0, rfl, rfl, rfl⟩
  have hinner : Erasable builtin 0 β (.listOf (.var .list "E")) :=
    .apply .list fun arg harg => by
      rw [List.mem_singleton.1 harg]
      exact .var hitem
  have hty : Erasable builtin 0 β ty :=
    .apply .list fun arg harg => by
      rw [List.mem_singleton.1 harg]
      exact hinner
  have hfails : outcome (resolve ty ty) builtin =
      .error (.internal (.resolutionDepth (.listOf (.var .list "E")) ty)) := by decide +kernel
  refine ⟨by decide, hty, rfl, hfails, fun r t' h => ?_⟩
  rw [outcome_of_ok h] at hfails
  cases hfails

end ClassTable
end Introspect
