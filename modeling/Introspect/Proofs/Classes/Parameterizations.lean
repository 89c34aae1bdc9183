import Introspect.Proofs.Classes.Ancestry
import Introspect.Proofs.Types.Substitution

/-!
What the two searches of a hierarchy find.

One search visits every supertype once and sees classes only; the other follows parameterizations, rewrites
their arguments and gives up where it finds none. Both walk the same declared supertypes.

* `searchParameters_supplied`: below the depth limit the search for arguments answers, and it finds some just
  when an open way leads to a class that gives them.
* `supplied_of_parameterizes`: where no class names the target with an empty list of arguments, a way is open to
  every class that gives it some.
* `collectParameters_agrees`: so the two searches agree.
* `empty_parameterization_hides`: an empty list of arguments hides those declared behind it.
-/

namespace Introspect

open Relation

/-! ## Declared parameterizations -/

/-- The class is declared with a parameterization of the target that has arguments. -/
def Class.Parameterizes (c : Class) (target : ClassId) : Prop :=
  ∃ args, args ≠ [] ∧ .apply target args ∈ c.supertypes

/-- The arguments of the first parameterization of the target that the class is declared with. -/
def Class.argumentsFor? (c : Class) (target : ClassId) : Option (List TypeExpr) :=
  c.supertypes.findSome? (TypeExpr.argumentsOf? target)

namespace TypeExpr

theorem argumentsOf?_eq_some_iff {target : ClassId} {ty : TypeExpr} {args : List TypeExpr} :
    ty.argumentsOf? target = some args ↔ ty = .apply target args := by
  cases ty with
  | apply raw inner =>
    simp only [argumentsOf?]
    split
    · next h => simp [h]
    · next h => simp [h]
  | _ => simp [argumentsOf?]

theorem substitute_apply (owner : Class) (args : List TypeExpr) (raw : ClassId)
    (inner : List TypeExpr) :
    substitute owner args (.apply raw inner) = .apply raw (inner.map (substitute owner args)) := by
  cases args with
  | nil =>
    have hsame : inner.map (substitute owner []) = inner := List.map_id'' (fun _ => rfl) inner
    rw [hsame]
    rfl
  | cons a as =>
    rw [substitute_eq_subst (List.cons_ne_nil a as), subst, substAll_eq_map]

theorem substitute_named (owner : Class) (args : List TypeExpr) (id : ClassId) :
    substitute owner args (.named id) = .named id := by
  cases args <;> rfl

/-- Rewriting the arguments of a class or a parameterization leaves its class. -/
theorem parts?_substitute (owner : Class) (args : List TypeExpr) {ty : TypeExpr} {raw : ClassId}
    (h : ty.raw? = some raw) : ∃ inner, (substitute owner args ty).parts? = some (raw, inner) := by
  cases ty with
  | named id =>
    cases h
    exact ⟨[], by rw [substitute_named]; rfl⟩
  | apply r inner =>
    cases h
    exact ⟨_, by rw [substitute_apply]; rfl⟩
  | wildcard lower upper => cases h
  | var o name => cases h
  | array component => cases h

theorem argumentsOf?_substitute (owner : Class) (args : List TypeExpr) {target : ClassId}
    {ty : TypeExpr} (h : ty.raw?.isSome = true) :
    (substitute owner args ty).argumentsOf? target =
      (ty.argumentsOf? target).map (List.map (substitute owner args)) := by
  cases ty with
  | named id =>
    rw [substitute_named]
    rfl
  | apply raw inner =>
    rw [substitute_apply]
    simp only [argumentsOf?]
    split <;> rfl
  | wildcard lower upper => cases h
  | var o name => cases h
  | array component => cases h

end TypeExpr

theorem Class.argumentsFor?_substitute (c : Class) (args : List TypeExpr) (target : ClassId)
    (h : ∀ s ∈ c.supertypes, s.raw?.isSome = true) :
    (c.supertypes.map (TypeExpr.substitute c args)).findSome? (TypeExpr.argumentsOf? target) =
      (c.argumentsFor? target).map (List.map (TypeExpr.substitute c args)) := by
  unfold argumentsFor?
  generalize c.supertypes = supers at h
  induction supers with
  | nil => rfl
  | cons s ss ih =>
    rw [List.map_cons, List.findSome?_cons, List.findSome?_cons,
      TypeExpr.argumentsOf?_substitute c args (h s List.mem_cons_self),
      ih fun s' hs' => h s' (List.mem_cons_of_mem s hs')]
    cases s.argumentsOf? target <;> rfl

/-- The first parameterization has arguments or hides those behind it. -/
theorem Class.argumentsFor?_eq_some {c : Class} {target : ClassId} {args : List TypeExpr}
    (h : c.argumentsFor? target = some args) : .apply target args ∈ c.supertypes := by
  obtain ⟨s, hs, hargs⟩ := List.exists_of_findSome?_eq_some h
  rw [TypeExpr.argumentsOf?_eq_some_iff.1 hargs] at hs
  exact hs

theorem Class.argumentsFor?_eq_none {c : Class} {target : ClassId}
    (h : c.argumentsFor? target = none) (args : List TypeExpr) :
    .apply target args ∉ c.supertypes := by
  intro hmem
  have hnone := List.findSome?_eq_none_iff.1 h _ hmem
  rw [TypeExpr.argumentsOf?_eq_some_iff.2 rfl] at hnone
  cases hnone

namespace ClassTable

/-! ## Ways to a parameterization -/

/-- The search for arguments of the target passes from `a` to its supertype `b`: `a` is not the target and
names no parameterization of it. -/
def Passes (t : ClassTable) (target a b : ClassId) : Prop :=
  a ≠ target ∧ ∃ c, t.find? a = some c ∧ c.argumentsFor? target = none ∧ b ∈ c.supertypeIds

/-- The first parameterization of the target that `a` is declared with has arguments. -/
def Gives (t : ClassTable) (target a : ClassId) : Prop :=
  a ≠ target ∧ ∃ c args, t.find? a = some c ∧ c.argumentsFor? target = some args ∧ args ≠ []

/-- An open way leads from `a` to a class that gives arguments to the target. -/
def Supplied (t : ClassTable) (target a : ClassId) : Prop :=
  ∃ b, ReflTransGen (t.Passes target) a b ∧ t.Gives target b

section Supplied

variable {t : ClassTable} {target a : ClassId} {c : Class}

theorem Passes.direct {b : ClassId} (h : t.Passes target a b) : t.Direct a b := by
  obtain ⟨-, c, hc, -, hb⟩ := h
  exact ⟨c, hc, hb⟩

theorem Gives.parameterizes (h : t.Gives target a) :
    ∃ c, t.find? a = some c ∧ c.Parameterizes target := by
  obtain ⟨-, c, args, hc, hargs, hne⟩ := h
  exact ⟨c, hc, args, hne, Class.argumentsFor?_eq_some hargs⟩

/-- The target is given no arguments by its supertypes. -/
theorem not_supplied_self : ¬ t.Supplied target target := by
  rintro ⟨b, hreach, hgives⟩
  rcases hreach.cases_head with rfl | ⟨d, hstep, -⟩
  · exact hgives.1 rfl
  · exact hstep.1 rfl

theorem supplied_of_found (hc : t.find? a = some c) (hne : a ≠ target) {args : List TypeExpr}
    (hargs : c.argumentsFor? target = some args) : t.Supplied target a ↔ args ≠ [] := by
  constructor
  · rintro ⟨b, hreach, hgives⟩
    rcases hreach.cases_head with rfl | ⟨d, ⟨-, c', hc', hnone, -⟩, -⟩
    · obtain ⟨-, c', args', hc', hargs', hfull⟩ := hgives
      cases hc.symm.trans hc'
      cases hargs.symm.trans hargs'
      exact hfull
    · cases hc.symm.trans hc'
      cases hargs.symm.trans hnone
  · intro hfull
    exact ⟨a, .refl, hne, c, args, hc, hargs, hfull⟩

theorem supplied_of_none (hc : t.find? a = some c) (hne : a ≠ target)
    (hnone : c.argumentsFor? target = none) :
    t.Supplied target a ↔ ∃ b ∈ c.supertypeIds, t.Supplied target b := by
  constructor
  · rintro ⟨d, hreach, hgives⟩
    rcases hreach.cases_head with rfl | ⟨b, ⟨-, c', hc', -, hb⟩, hreach⟩
    · obtain ⟨-, c', args, hc', hargs, -⟩ := hgives
      cases hc.symm.trans hc'
      cases hargs.symm.trans hnone
    · cases hc.symm.trans hc'
      exact ⟨b, hb, d, hreach, hgives⟩
  · rintro ⟨b, hb, d, hreach, hgives⟩
    exact ⟨d, .head ⟨hne, c, hc, hnone, hb⟩ hreach, hgives⟩

end Supplied

/-! ## The search for arguments -/

/-- Where every answer is found, the first one that is not empty is found too. -/
theorem firstNonEmpty_total {α β : Type} (f : α → Except Error (List β)) (as : List α)
    (h : ∀ a ∈ as, ∃ bs, f a = .ok bs) :
    ∃ bs, firstNonEmpty f as = .ok bs ∧ (bs ≠ [] ↔ ∃ a ∈ as, ∃ cs, f a = .ok cs ∧ cs ≠ []) := by
  induction as with
  | nil => exact ⟨[], rfl, by simp⟩
  | cons a as ih =>
    obtain ⟨bs, hbs⟩ := h a List.mem_cons_self
    obtain ⟨ds, hds, hiff⟩ := ih fun a' ha' => h a' (List.mem_cons_of_mem a ha')
    cases bs with
    | nil =>
      refine ⟨ds, by simp [firstNonEmpty, hbs, hds], hiff.trans ?_⟩
      simp [hbs]
    | cons b bs =>
      refine ⟨b :: bs, by simp [firstNonEmpty, hbs], ?_⟩
      simp [hbs]

/-- The classes that `a` leads to are declared, and their supertypes are classes or parameterizations. -/
def WellNamed (t : ClassTable) (a : ClassId) : Prop :=
  ∀ b, ReflTransGen t.Direct a b → ∃ c, t.find? b = some c ∧ ∀ s ∈ c.supertypes, s.raw?.isSome = true

theorem WellNamed.step {t : ClassTable} {a b : ClassId} (h : t.WellNamed a) (hab : t.Direct a b) :
    t.WellNamed b := fun d hd => h d (.head hab hd)

section Search

variable {t : ClassTable} {target raw : ClassId} {n : Nat} {ty : TypeExpr} {args : List TypeExpr}
  {c : Class}

/-- A level that is the target or names a parameterization of it answers by itself. -/
theorem searchParameters_of_found (hparts : ty.parts? = some (raw, args)) (hne : raw ≠ target)
    (hc : t.find? raw = some c) (hnamed : ∀ s ∈ c.supertypes, s.raw?.isSome = true)
    {found : List TypeExpr} (hargs : c.argumentsFor? target = some found) :
    t.searchParameters target (n + 1) ty = .ok (found.map (TypeExpr.substitute c args)) := by
  have hfound := c.argumentsFor?_substitute args target hnamed
  rw [hargs, Option.map_some] at hfound
  simp only [searchParameters, hparts, if_neg hne, lookup_eq_ok_iff.2 hc, hfound]

/-- Any other level asks those above it, each under the arguments it is given. -/
theorem searchParameters_of_none (hparts : ty.parts? = some (raw, args)) (hne : raw ≠ target)
    (hc : t.find? raw = some c) (hnamed : ∀ s ∈ c.supertypes, s.raw?.isSome = true)
    (hargs : c.argumentsFor? target = none) :
    t.searchParameters target (n + 1) ty =
      firstNonEmpty (t.searchParameters target n) (c.supertypes.map (TypeExpr.substitute c args)) := by
  have hfound := c.argumentsFor?_substitute args target hnamed
  rw [hargs, Option.map_none] at hfound
  simp only [searchParameters, hparts, if_neg hne, lookup_eq_ok_iff.2 hc, hfound]

/-- A supertype that is no parameterization of the target brings no arguments to it. -/
theorem no_arguments_of_none (hargs : c.argumentsFor? target = none) {s : TypeExpr}
    (hs : s ∈ c.supertypes) (hraw : s.raw? = some target) {inner : List TypeExpr}
    (hinner : (TypeExpr.substitute c args s).parts? = some (target, inner)) : inner = [] := by
  cases s with
  | named id =>
    rw [TypeExpr.substitute_named] at hinner
    cases hinner
    rfl
  | apply r given =>
    cases hraw
    exact absurd hs (Class.argumentsFor?_eq_none hargs given)
  | wildcard lower upper => cases hraw
  | var o name => cases hraw
  | array component => cases hraw

/-- The levels above answer together what each of them answers for its class. -/
theorem firstNonEmpty_supplied (hnamed : ∀ s ∈ c.supertypes, s.raw?.isSome = true)
    (hup : ∀ s ∈ c.supertypes, ∀ b, s.raw? = some b →
      ∃ ps, t.searchParameters target n (TypeExpr.substitute c args s) = .ok ps ∧
        (ps ≠ [] ↔ t.Supplied target b)) :
    ∃ ps, firstNonEmpty (t.searchParameters target n)
        (c.supertypes.map (TypeExpr.substitute c args)) = .ok ps ∧
      (ps ≠ [] ↔ ∃ b ∈ c.supertypeIds, t.Supplied target b) := by
  obtain ⟨ps, hps, hiff⟩ := firstNonEmpty_total (t.searchParameters target n)
    (c.supertypes.map (TypeExpr.substitute c args)) fun s' hs' => by
      obtain ⟨s, hs, rfl⟩ := List.mem_map.1 hs'
      obtain ⟨b, hb⟩ := Option.isSome_iff_exists.1 (hnamed s hs)
      obtain ⟨ps, hps, -⟩ := hup s hs b hb
      exact ⟨ps, hps⟩
  refine ⟨ps, hps, hiff.trans ?_⟩
  constructor
  · rintro ⟨s', hs', qs, hqs, hne⟩
    obtain ⟨s, hs, rfl⟩ := List.mem_map.1 hs'
    obtain ⟨b, hb⟩ := Option.isSome_iff_exists.1 (hnamed s hs)
    obtain ⟨ps', hps', hiff'⟩ := hup s hs b hb
    cases hps'.symm.trans hqs
    exact ⟨b, List.mem_filterMap.2 ⟨s, hs, hb⟩, hiff'.1 hne⟩
  · rintro ⟨b, hb, hsupplied⟩
    obtain ⟨s, hs, hraw⟩ := List.mem_filterMap.1 hb
    obtain ⟨ps', hps', hiff'⟩ := hup s hs b hraw
    exact ⟨_, List.mem_map_of_mem hs, ps', hps', hiff'.2 hsupplied⟩

/-- The search answers when no way up is longer than it may go, and it finds arguments where they are
supplied. -/
theorem searchParameters_supplied (target : ClassId) (hparts : ty.parts? = some (raw, args))
    (hnamed : t.WellNamed raw) (hwalk : ¬ Walks t.Direct n raw) :
    ∃ ps, t.searchParameters target n ty = .ok ps ∧
      (ps ≠ [] ↔ raw = target ∧ args ≠ [] ∨ t.Supplied target raw) := by
  induction n generalizing ty raw args with
  | zero => exact absurd trivial hwalk
  | succ n ih =>
    by_cases htarget : raw = target
    · subst htarget
      refine ⟨args, by simp only [searchParameters, hparts, if_true], ?_⟩
      simp [not_supplied_self]
    · obtain ⟨c, hc, hsupers⟩ := hnamed raw .refl
      cases hargs : c.argumentsFor? target with
      | some found =>
        refine ⟨_, searchParameters_of_found hparts htarget hc hsupers hargs, ?_⟩
        simp [supplied_of_found hc htarget hargs, htarget]
      | none =>
        rw [searchParameters_of_none hparts htarget hc hsupers hargs,
          supplied_of_none hc htarget hargs]
        simp only [htarget, false_and, false_or]
        refine firstNonEmpty_supplied hsupers fun s hs b hb => ?_
        obtain ⟨inner, hinner⟩ := TypeExpr.parts?_substitute c args hb
        have hstep : t.Direct raw b := ⟨c, hc, List.mem_filterMap.2 ⟨s, hs, hb⟩⟩
        obtain ⟨ps, hps, hiff⟩ := ih hinner (hnamed.step hstep) fun hw => hwalk ⟨b, hstep, hw⟩
        refine ⟨ps, hps, hiff.trans (or_iff_right ?_)⟩
        rintro ⟨rfl, hne⟩
        exact hne (no_arguments_of_none hargs hs hb hinner)

end Search

/-! ## Agreement with the closure of supertypes -/

section Agreement

variable {t : ClassTable} {target a : ClassId}

/-- A class that gives arguments is reached, so the target is a supertype. -/
theorem Supplied.reaches (h : t.Supplied target a) :
    ∃ b c, ReflTransGen t.Direct a b ∧ t.find? b = some c ∧ c.Parameterizes target := by
  obtain ⟨b, hreach, hgives⟩ := h
  obtain ⟨c, hc, hnames⟩ := hgives.parameterizes
  exact ⟨b, c, ReflTransGen.mono (fun _ _ => Passes.direct) _ _ hreach, hc, hnames⟩

theorem direct_of_parameterizes {b : ClassId} {c : Class} (hc : t.find? b = some c)
    (h : c.Parameterizes target) : t.Direct b target := by
  obtain ⟨args, -, hmem⟩ := h
  exact ⟨c, hc, List.mem_filterMap.2 ⟨_, hmem, rfl⟩⟩

/-- No class that `a` leads to names the target with an empty list of arguments. -/
def NamesInFull (t : ClassTable) (target a : ClassId) : Prop :=
  ∀ b c, ReflTransGen t.Direct a b → t.find? b = some c → .apply target [] ∉ c.supertypes

/-- A class that names the target in full either gives it arguments or lets the search pass. -/
theorem supplied_or_passes (hfull : t.NamesInFull target a) (hne : a ≠ target) {c : Class}
    (hc : t.find? a = some c) : t.Supplied target a ∨ c.argumentsFor? target = none := by
  cases hargs : c.argumentsFor? target with
  | none => exact .inr rfl
  | some args =>
    refine .inl ((supplied_of_found hc hne hargs).2 ?_)
    rintro rfl
    exact hfull a c .refl hc (Class.argumentsFor?_eq_some hargs)

/-- Every way to a class that parameterizes the target is open up to the first such class, unless the target
leads back to itself. -/
theorem supplied_of_parameterizes (hfull : t.NamesInFull target a) (hcircle : ¬ Circles t.Direct a)
    {b : ClassId} {c : Class} (hreach : ReflTransGen t.Direct a b) (hc : t.find? b = some c)
    (hnames : c.Parameterizes target) : t.Supplied target a := by
  have htarget : t.Direct b target := direct_of_parameterizes hc hnames
  induction hreach using ReflTransGen.head_induction_on with
  | refl =>
    have hne : b ≠ target := by
      rintro rfl
      exact hcircle ⟨b, .refl, .single htarget⟩
    rcases supplied_or_passes hfull hne hc with hsupplied | hnone
    · exact hsupplied
    · obtain ⟨args, -, hmem⟩ := hnames
      exact absurd hmem (Class.argumentsFor?_eq_none hnone args)
  | @head a d hstep hreach ih =>
    have hne : a ≠ target := by
      rintro rfl
      exact hcircle ⟨a, .refl, .head' hstep (hreach.tail htarget)⟩
    have hrest : t.Supplied target d :=
      ih (fun e f he => hfull e f (.head hstep he)) fun h => hcircle (.of_step hstep h)
    obtain ⟨f, hf, hd⟩ := hstep
    rcases supplied_or_passes hfull hne hf with hsupplied | hnone
    · exact hsupplied
    · exact (supplied_of_none hf hne hnone).2 ⟨d, hd, hrest⟩

/-- The target is a supertype of every class that is supplied. -/
theorem isAssignable_of_supplied {c : Class} {cs : List Class} (hc : t.find? a = some c)
    (hstrict : c.isStrictPrimitive = false) (hcs : t.supertypes a = .ok cs)
    (h : t.Supplied target a) : t.isAssignable target a = true := by
  obtain ⟨b, d, hreach, hd, hnames⟩ := h.reaches
  obtain ⟨e, he, hid⟩ :=
    (reaches_iff_of_supertypes hcs).1 (hreach.tail (direct_of_parameterizes hd hnames))
  have hany : cs.any (·.id = target) = true :=
    List.any_eq_true.2 ⟨e, he, decide_eq_true hid⟩
  unfold isAssignable hasSupertype
  simp only [hc, hstrict, hcs, hany, if_false, Bool.false_eq_true, ite_self]

end Agreement

/-- Below the depth limit the search for arguments answers. It finds some just when the type is the target
with arguments or an open way leads from its class to arguments, and then the target is a supertype. Where
every class names the target with arguments, it finds some just when any class of the closure does. -/
theorem collectParameters_agrees {t : ClassTable} (ty : TypeExpr) {raw : ClassId}
    {args : List TypeExpr} {c : Class} {cs : List Class} (hparts : ty.parts? = some (raw, args))
    (hc : t.find? raw = some c) (hstrict : c.isStrictPrimitive = false)
    (hcs : t.supertypes raw = .ok cs) (hnamed : ∀ d ∈ cs, ∀ s ∈ d.supertypes, s.raw?.isSome = true)
    (hwalk : ¬ Walks t.Direct (depthLimit + 1) raw) (target : ClassId) :
    ∃ ps, t.collectParameters ty target = .ok ps ∧
      (ps ≠ [] → t.isAssignable target raw = true) ∧
      (ps ≠ [] ↔ raw = target ∧ args ≠ [] ∨ t.Supplied target raw) ∧
      ((∀ d ∈ cs, .apply target [] ∉ d.supertypes) →
        (ps ≠ [] ↔ raw = target ∧ args ≠ [] ∨ ∃ d ∈ cs, d.Parameterizes target)) := by
  have hfound := found_of_supertypes hcs
  have hmem : ∀ b d, ReflTransGen t.Direct raw b → t.find? b = some d → d ∈ cs := by
    intro b d hreach hd
    obtain ⟨e, he, rfl⟩ := (reaches_iff_of_supertypes hcs).1 hreach
    cases (hfound e he).symm.trans hd
    exact he
  have hwell : t.WellNamed raw := by
    intro b hreach
    obtain ⟨d, hd, rfl⟩ := (reaches_iff_of_supertypes hcs).1 hreach
    exact ⟨d, hfound d hd, hnamed d hd⟩
  obtain ⟨ps, hps, hiff⟩ := searchParameters_supplied target hparts hwell hwalk
  refine ⟨ps, hps, fun hne => ?_, hiff, fun hopen => hiff.trans (or_congr_right ?_)⟩
  · rcases hiff.1 hne with ⟨rfl, -⟩ | hsupplied
    · rw [isAssignable, if_pos rfl]
    · exact isAssignable_of_supplied hc hstrict hcs hsupplied
  · constructor
    · intro hsupplied
      obtain ⟨b, d, hreach, hd, hnames⟩ := hsupplied.reaches
      exact ⟨d, hmem b d hreach hd, hnames⟩
    · rintro ⟨d, hd, hnames⟩
      have hfull : t.NamesInFull target raw := fun b e hreach he => hopen e (hmem b e hreach he)
      have hcircle : ¬ Circles t.Direct raw := fun h => hwalk (h.walks _)
      exact supplied_of_parameterizes hfull hcircle ((reaches_iff_of_supertypes hcs).2 ⟨d, hd, rfl⟩)
        (hfound d hd) hnames

/-- A class that names lists only. -/
def shelfClass (interfaces : List TypeExpr) : Class :=
  { Class.bare ⟨"Shelf"⟩ .plain with superclass := some .object, interfaces := interfaces }

def shelfTable (interfaces : List TypeExpr) : ClassTable :=
  ⟨shelfClass interfaces :: builtin.classes⟩

def shelfClosure (interfaces : List TypeExpr) : List Class :=
  [shelfClass interfaces, .bare .object .plain, generic .list .interface ["E"] []]

/-- Distance from the classes without supertypes. -/
def shelfRank (id : ClassId) : Nat := if id ∈ [.object, .list, .map] then 0 else 1

/-- A list of texts: the class names the interface with an argument, and the search finds it. -/
theorem collectParameters_agrees_shelf :
    let interfaces : List TypeExpr := [.listOf (.named .string)]
    let t := shelfTable interfaces
    t.find? ⟨"Shelf"⟩ = some (shelfClass interfaces) ∧
      t.supertypes ⟨"Shelf"⟩ = .ok (shelfClosure interfaces) ∧
      ¬ Walks t.Direct (depthLimit + 1) ⟨"Shelf"⟩ ∧
      ∃ ps, t.collectParameters (.named ⟨"Shelf"⟩) .list = .ok ps ∧ ps ≠ [] ∧
        t.isAssignable .list ⟨"Shelf"⟩ = true := by
  intro interfaces t
  have hcs : t.supertypes ⟨"Shelf"⟩ = .ok (shelfClosure interfaces) := by
    rw [supertypes, visit_found rfl rfl, visit_found rfl rfl, visit_found rfl rfl, visit_nil rfl]
    rfl
  have hwalk : ¬ Walks t.Direct (depthLimit + 1) ⟨"Shelf"⟩ := fun h =>
    absurd (h.le_rank shelfRank fun _ _ => rank_lt_of_direct (by decide +kernel)) (by decide)
  obtain ⟨ps, hps, hassign, -, hfull⟩ :=
    collectParameters_agrees (.named ⟨"Shelf"⟩) rfl rfl rfl hcs (by decide) hwalk .list
  have hnames : (shelfClass interfaces).Parameterizes .list :=
    ⟨[.named .string], by decide, by decide⟩
  have hne : ps ≠ [] := (hfull (by decide)).2 (.inr ⟨_, List.mem_cons_self, hnames⟩)
  exact ⟨rfl, hcs, hwalk, ps, hps, hne, hassign hne⟩

/-- The interface is named without arguments before it is named with one: the search finds none. -/
theorem empty_parameterization_hides :
    let interfaces : List TypeExpr := [.apply .list [], .listOf (.named .string)]
    let t := shelfTable interfaces
    builtin.define (shelfClass interfaces) = .ok t ∧
      t.find? ⟨"Shelf"⟩ = some (shelfClass interfaces) ∧
      (shelfClass interfaces).isStrictPrimitive = false ∧
      t.supertypes ⟨"Shelf"⟩ = .ok (shelfClosure interfaces) ∧
      (∀ d ∈ shelfClosure interfaces, ∀ s ∈ d.supertypes, s.raw?.isSome = true) ∧
      ¬ Walks t.Direct (depthLimit + 1) ⟨"Shelf"⟩ ∧
      (∃ d ∈ shelfClosure interfaces, d.Parameterizes .list) ∧
      t.collectParameters (.named ⟨"Shelf"⟩) .list = .ok [] := by
  intro interfaces t
  have hcs : t.supertypes ⟨"Shelf"⟩ = .ok (shelfClosure interfaces) := by
    rw [supertypes, visit_found rfl rfl, visit_found rfl rfl, visit_found rfl rfl, visit_nil rfl]
    rfl
  have hwalk : ¬ Walks t.Direct (depthLimit + 1) ⟨"Shelf"⟩ := fun h =>
    absurd (h.le_rank shelfRank fun _ _ => rank_lt_of_direct (by decide +kernel)) (by decide)
  have hnames : (shelfClass interfaces).Parameterizes .list :=
    ⟨[.named .string], by decide, by decide⟩
  exact ⟨rfl, rfl, rfl, hcs, by decide, hwalk, ⟨_, List.mem_cons_self, hnames⟩, by decide +kernel⟩

end ClassTable
end Introspect
