import Introspect.Proofs.Classes.Assignability
import Mathlib.Data.List.Nodup
import Mathlib.Data.List.TakeWhile
import Mathlib.Logic.Relation

/-!
The hierarchy of a class table as a relation between class ids.

Supertypes may be declared later than the classes that name them, so nothing keeps a class from being its own
superclass. A walk along such a hierarchy never ends.

* `Walks.le_length`: a walk that passes a finite set only, and meets no circle, is no longer than the set.
* `superclassChain_endless_iff`: the chain of superclasses has no end just when it leads into a circle.
* `superclassChain_total`: every other chain of declared classes ends.
* `supertypes_total`: the supertypes of a class are found when all of them are declared.
* `direct_mem_of_supertypes`: the supertypes of a class are closed under supertypes.
* `reaches_iff_of_supertypes`: they are the classes that declared supertypes lead to.
* `visit_chainFrom`: they begin with its superclasses.
-/

namespace Introspect

open Relation

/-! ## Walks -/

section Walks

variable {α : Type} {R : α → α → Prop}

/-- `n` steps in a row can be taken from `a`. -/
def Walks (R : α → α → Prop) : Nat → α → Prop
  | 0, _ => True
  | n + 1, a => ∃ b, R a b ∧ Walks R n b

/-- Steps from `a` lead to an element that steps lead back to. -/
def Circles (R : α → α → Prop) (a : α) : Prop := ∃ b, ReflTransGen R a b ∧ TransGen R b b

theorem Circles.of_step {a b : α} (h : R a b) (hb : Circles R b) : Circles R a := by
  obtain ⟨c, hbc, hc⟩ := hb
  exact ⟨c, .head h hbc, hc⟩

/-- From an element that leads into a circle, a step leads to another such element. -/
theorem Circles.step {a : α} (h : Circles R a) : ∃ b, R a b ∧ Circles R b := by
  obtain ⟨c, hac, hc⟩ := h
  rcases hac.cases_head with rfl | ⟨b, hab, hbc⟩
  · obtain ⟨b, hab, hba⟩ := TransGen.head'_iff.1 hc
    exact ⟨b, hab, a, hba, hc⟩
  · exact ⟨b, hab, c, hbc, hc⟩

/-- Where a step can always be taken, steps can be taken for ever. -/
theorem Walks.of_step {P : α → Prop} (hP : ∀ a, P a → ∃ b, R a b ∧ P b) {a : α} (ha : P a) (n : Nat) :
    Walks R n a := by
  induction n generalizing a with
  | zero => trivial
  | succ n ih =>
    obtain ⟨b, hab, hb⟩ := hP a ha
    exact ⟨b, hab, ih hb⟩

theorem Circles.mono {S : α → α → Prop} (hRS : ∀ a b, R a b → S a b) {a : α} (h : Circles R a) :
    Circles S a := by
  obtain ⟨b, hab, hb⟩ := h
  exact ⟨b, ReflTransGen.mono hRS _ _ hab, TransGen.mono hRS _ _ hb⟩

theorem Walks.pred {n : Nat} {a : α} (h : Walks R (n + 1) a) : Walks R n a := by
  induction n generalizing a with
  | zero => trivial
  | succ n ih =>
    obtain ⟨b, hab, hb⟩ := h
    exact ⟨b, hab, ih hb⟩

theorem Circles.walks {a : α} (h : Circles R a) (n : Nat) : Walks R n a :=
  Walks.of_step (fun _ => Circles.step) h n

/-- Where steps count down, no walk is longer than the count it starts from. -/
theorem Walks.le_rank {n : Nat} {a : α} (h : Walks R n a) (rank : α → Nat)
    (hrank : ∀ b c, R b c → rank c < rank b) : n ≤ rank a := by
  induction n generalizing a with
  | zero => exact Nat.zero_le _
  | succ n ih =>
    obtain ⟨b, hab, hb⟩ := h
    exact Nat.lt_of_le_of_lt (ih hb) (hrank a b hab)

/-- Every step leaves an element of the list that is not met again. -/
theorem Walks.le_length [DecidableEq α] {n : Nat} {a : α} (h : Walks R n a) (ha : ¬ Circles R a)
    {l : List α} (hl : ∀ b c, ReflTransGen R a b → R b c → b ∈ l) : n ≤ l.length := by
  induction n generalizing a l with
  | zero => exact Nat.zero_le _
  | succ n ih =>
    obtain ⟨b, hab, hb⟩ := h
    have hmem : a ∈ l := hl a b .refl hab
    have hle : n ≤ (l.erase a).length := by
      refine ih hb (fun hc => ha (.of_step hab hc)) fun x y hbx hxy => ?_
      have hne : x ≠ a := by
        rintro rfl
        exact ha ⟨x, .refl, .head' hab hbx⟩
      exact (List.mem_erase_of_ne hne).2 (hl x y (.head hab hbx) hxy)
    have hpos : 0 < l.length := List.length_pos_of_mem hmem
    rw [List.length_erase_of_mem hmem] at hle
    omega

end Walks

namespace ClassTable

/-! ## The relations -/

/-- `b` is the superclass that `a` is declared with. -/
def Climbs (t : ClassTable) (a b : ClassId) : Prop :=
  ∃ c, t.find? a = some c ∧ c.superclassId? = some b

/-- The chain of superclasses of `a` comes back to one of its classes. -/
def Loops (t : ClassTable) (a : ClassId) : Prop := Circles t.Climbs a

/-- `b` is a supertype that `a` is declared with. -/
def Direct (t : ClassTable) (a b : ClassId) : Prop :=
  ∃ c, t.find? a = some c ∧ b ∈ c.supertypeIds

instance (t : ClassTable) (a b : ClassId) : Decidable (t.Direct a b) :=
  decidable_of_iff ((t.find? a).any fun c => b ∈ c.supertypeIds) <| by
    simp [Direct, Option.any_eq_true]

/-- `a` is a strict subtype of `b`. -/
def Descends (t : ClassTable) (a b : ClassId) : Prop := TransGen t.Direct a b

/-- No class is a strict subtype of itself. -/
def Acyclic (t : ClassTable) : Prop := ∀ a, ¬ t.Descends a a

/-- Every supertype that a class is declared with is declared. -/
def SupertypesDeclared (t : ClassTable) : Prop := ∀ a b, t.Direct a b → t.contains b = true

theorem supertypeIds_of_superclassId? {c : Class} {s : ClassId} (h : c.superclassId? = some s) :
    ∃ rest, c.supertypeIds = s :: rest := by
  obtain ⟨ty, hty, hraw⟩ := Option.bind_eq_some_iff.1 h
  refine ⟨c.interfaces.filterMap TypeExpr.raw?, ?_⟩
  rw [Class.supertypeIds, Class.supertypes, hty]
  simp [hraw]

theorem Climbs.direct {t : ClassTable} {a b : ClassId} (h : t.Climbs a b) : t.Direct a b := by
  obtain ⟨c, hc, hs⟩ := h
  obtain ⟨rest, hrest⟩ := supertypeIds_of_superclassId? hs
  exact ⟨c, hc, by rw [hrest]; exact List.mem_cons_self ..⟩

theorem Acyclic.not_loops {t : ClassTable} (h : t.Acyclic) (a : ClassId) : ¬ t.Loops a := by
  rintro ⟨b, -, hb⟩
  exact h b (TransGen.mono (fun _ _ => Climbs.direct) _ _ hb)

theorem rank_lt_of_direct {t : ClassTable} {rank : ClassId → Nat}
    (h : ∀ c ∈ t.classes, ∀ s ∈ c.supertypeIds, rank s < rank c.id) {a b : ClassId}
    (hab : t.Direct a b) : rank b < rank a := by
  obtain ⟨c, hc, hb⟩ := hab
  have hlt := h c (mem_of_find? hc) b hb
  rwa [find?_id hc] at hlt

/-- Declarations that count down towards their supertypes hold no circle. -/
theorem Acyclic.of_rank {t : ClassTable} (rank : ClassId → Nat)
    (h : ∀ c ∈ t.classes, ∀ s ∈ c.supertypeIds, rank s < rank c.id) : t.Acyclic := by
  have hbelow : ∀ a b, t.Descends a b → rank b < rank a := by
    intro a b hab
    induction hab with
    | single hd => exact rank_lt_of_direct h hd
    | tail _ hd ih => exact Nat.lt_trans (rank_lt_of_direct h hd) ih
  exact fun a ha => Nat.lt_irrefl _ (hbelow a a ha)

theorem SupertypesDeclared.of_classes {t : ClassTable}
    (h : ∀ c ∈ t.classes, ∀ s ∈ c.supertypeIds, t.contains s = true) : t.SupertypesDeclared := by
  rintro a b ⟨c, hc, hb⟩
  exact h c (mem_of_find? hc) b hb

/-! ## Chains of superclasses -/

theorem chainFrom_endless_walks {t : ClassTable} {n : Nat} {c : Class} (hc : t.find? c.id = some c)
    {id : ClassId} (h : t.chainFrom n c = .error (.endless id)) : Walks t.Climbs n c.id := by
  induction n generalizing c with
  | zero => trivial
  | succ n ih =>
    unfold chainFrom at h
    cases hs : c.superclassId? with
    | none => simp only [hs] at h; cases h
    | some s =>
      simp only [hs] at h
      refine ⟨s, ⟨c, hc, hs⟩, ?_⟩
      cases hp : t.lookup s with
      | error e =>
        simp only [hp] at h
        rw [(lookup_eq_error_iff.1 hp).2] at h
        cases h
      | ok p =>
        have hfp := lookup_eq_ok_iff.1 hp
        have hid : p.id = s := find?_id hfp
        simp only [hp] at h
        cases hd : t.chainFrom n p with
        | ok ds => simp only [hd] at h; cases h
        | error e =>
          simp only [hd] at h
          cases h
          rw [← hid] at hfp ⊢
          exact ih hfp hd

theorem chainFrom_of_loops {t : ClassTable} {c : Class} (hc : t.find? c.id = some c)
    (h : t.Loops c.id) (n : Nat) : ∃ id, t.chainFrom n c = .error (.endless id) := by
  induction n generalizing c with
  | zero => exact ⟨c.id, rfl⟩
  | succ n ih =>
    obtain ⟨s, ⟨d, hd, hs⟩, hloops⟩ := Circles.step h
    cases hc.symm.trans hd
    -- a class that leads on is declared
    obtain ⟨-, ⟨p, hp, -⟩, -⟩ := Circles.step hloops
    have hid : p.id = s := find?_id hp
    obtain ⟨id, hend⟩ := ih (c := p) (by rw [hid]; exact hp) (by rw [hid]; exact hloops)
    refine ⟨id, ?_⟩
    simp only [chainFrom, hs, lookup_eq_ok_iff.2 hp, hend]

/-- There are no more steps than classes unless a class is met twice. -/
theorem loops_of_walks {t : ClassTable} {a : ClassId} (h : Walks t.Climbs (t.size + 1) a) :
    t.Loops a := by
  by_contra hno
  have hle := h.le_length hno (l := t.classes.map (·.id)) fun b c _ hbc => by
    obtain ⟨d, hd, -⟩ := hbc
    exact List.mem_map.2 ⟨d, mem_of_find? hd, find?_id hd⟩
  rw [List.length_map] at hle
  exact Nat.lt_irrefl _ hle

/-- The walk to the superclasses of a declared class has no end just when it meets a class twice. -/
theorem superclassChain_endless_iff {t : ClassTable} {c : Class} (hc : t.find? c.id = some c) :
    (∃ id, t.superclassChain c = .error (.endless id)) ↔ t.Loops c.id := by
  constructor
  · rintro ⟨id, h⟩
    exact loops_of_walks (chainFrom_endless_walks hc h)
  · intro h
    exact chainFrom_of_loops hc h _

theorem Loops.within {t u : ClassTable} (htu : t.Within u) {a : ClassId} (h : t.Loops a) :
    u.Loops a := by
  refine Circles.mono (fun b c => ?_) h
  rintro ⟨d, hd, hs⟩
  exact ⟨d, htu _ _ hd, hs⟩

/-- Array classes lead to `Object` only, so they lead into no circle. -/
theorem Loops.of_extends {t u : ClassTable} (hroot : t.Rooted) (htu : t.Extends u) {a : ClassId}
    (h : u.Loops a) : t.Loops a := by
  refine loops_of_walks (Walks.of_step (P := u.Loops) (fun b hb => ?_) h _)
  obtain ⟨c, ⟨d, hd, hs⟩, hc⟩ := Circles.step hb
  rcases htu.arrays b d hd with hdt | ⟨component, rfl⟩
  · exact ⟨c, ⟨d, hdt, hs⟩, hc⟩
  · cases hs
    obtain ⟨_, ⟨o, ho, hclimbs⟩, -⟩ := Circles.step hc
    obtain ⟨o', ho', hnone⟩ := hroot.within htu.within
    cases ho.symm.trans ho'
    obtain ⟨rest, hrest⟩ := supertypeIds_of_superclassId? hclimbs
    rw [hnone] at hrest
    cases hrest

/-- The walk fails with an undeclared superclass only, or has no end. -/
theorem chainFrom_error {t : ClassTable} {n : Nat} {c : Class} {e : Error}
    (hc : t.find? c.id = some c) (h : t.chainFrom n c = .error e) :
    (∃ id, e = .endless id) ∨ ∃ a b, t.Climbs a b ∧ t.find? b = none ∧ e = .unknownClass b := by
  induction n generalizing c with
  | zero => cases h; exact .inl ⟨_, rfl⟩
  | succ n ih =>
    unfold chainFrom at h
    cases hs : c.superclassId? with
    | none => simp only [hs] at h; cases h
    | some s =>
      simp only [hs] at h
      cases hp : t.lookup s with
      | error e' =>
        obtain ⟨hnone, rfl⟩ := lookup_eq_error_iff.1 hp
        simp only [hp] at h
        cases h
        exact .inr ⟨c.id, s, ⟨c, hc, hs⟩, hnone, rfl⟩
      | ok p =>
        have hfp := lookup_eq_ok_iff.1 hp
        simp only [hp] at h
        cases hd : t.chainFrom n p with
        | ok ds => simp only [hd] at h; cases h
        | error e' =>
          simp only [hd] at h
          cases h
          exact ih (by rw [find?_id hfp]; exact hfp) hd

theorem superclassChain_total {t : ClassTable} (hdecl : t.SupertypesDeclared) {c : Class}
    (hc : t.find? c.id = some c) (hloops : ¬ t.Loops c.id) :
    ∃ chain, t.superclassChain c = .ok chain := by
  cases h : t.superclassChain c with
  | ok chain => exact ⟨chain, rfl⟩
  | error e =>
    rcases chainFrom_error hc h with ⟨id, rfl⟩ | ⟨a, b, hab, hnone, -⟩
    · exact absurd ((superclassChain_endless_iff hc).1 ⟨id, h⟩) hloops
    · have hb := hdecl a b hab.direct
      rw [contains, hnone] at hb
      cases hb

theorem chainFrom_eq_cons {t : ClassTable} {n : Nat} {c : Class} {chain : List Class}
    (h : t.chainFrom n c = .ok chain) : ∃ rest, chain = c :: rest := by
  cases n with
  | zero => cases h
  | succ n =>
    rcases chainFrom_succ_eq_ok h with ⟨-, rfl⟩ | ⟨-, -, ds, -, -, -, rfl⟩
    · exact ⟨[], rfl⟩
    · exact ⟨ds, rfl⟩

/-- A declared class is known by its id, so no id occurs twice along a chain. -/
theorem chainFrom_ids_nodup {t : ClassTable} {n : Nat} {c : Class} {chain : List Class}
    (hc : t.find? c.id = some c) (h : t.chainFrom n c = .ok chain) :
    (chain.map (·.id)).Nodup := by
  have hfound := found_of_chainFrom hc h
  refine (chainFrom_nodup h).map_on fun a ha b hb hab => ?_
  have hsame := (hfound a ha).symm.trans (hab ▸ hfound b hb)
  cases hsame
  rfl

/-- Each class of the chain is a strict subtype of those after it. -/
theorem descends_of_chainFrom {t : ClassTable} {n : Nat} {c : Class} {chain : List Class}
    (hc : t.find? c.id = some c) (h : t.chainFrom n c = .ok chain) :
    chain.Pairwise fun a b => t.Descends a.id b.id := by
  induction n generalizing c chain with
  | zero => cases h
  | succ n ih =>
    rcases chainFrom_succ_eq_ok h with ⟨-, rfl⟩ | ⟨s, p, ds, hs, hp, hd, rfl⟩
    · exact List.pairwise_singleton _ _
    · have hfp := lookup_eq_ok_iff.1 hp
      have hid : p.id = s := find?_id hfp
      rw [← hid] at hfp hs
      have hrest := ih hfp hd
      have hcp : t.Descends c.id p.id := .single (Climbs.direct ⟨c, hc, hs⟩)
      refine List.pairwise_cons.2 ⟨fun q hq => ?_, hrest⟩
      obtain ⟨es, rfl⟩ := chainFrom_eq_cons hd
      rcases List.mem_cons.1 hq with rfl | hq
      · exact hcp
      · exact hcp.trans ((List.pairwise_cons.1 hrest).1 q hq)

/-! ## Closures of supertypes -/

theorem isVisited_iff {visited : List Class} {id : ClassId} :
    isVisited visited id = true ↔ ∃ c ∈ visited, c.id = id := by
  simp [isVisited]

/-- The search fails only where a class is missing. -/
theorem visit_total {t : ClassTable} (hdecl : t.SupertypesDeclared) {stack : List ClassId}
    {visited : List Class} (hstack : ∀ s ∈ stack, t.contains s = true) :
    ∃ cs, t.visit stack visited = .ok cs := by
  fun_induction t.visit stack visited with
  | case1 stack visited hs => exact ⟨_, rfl⟩
  | case2 stack visited id rest hs e he =>
    have hid : id ∈ stack := (List.dropWhile_suffix (isVisited visited)).subset (by rw [hs]; simp)
    have hin := hstack id hid
    rw [contains, (lookup_eq_error_iff.1 he).1] at hin
    cases hin
  | case3 stack visited id rest hs c hc ih =>
    refine ih fun s hmem => ?_
    rcases List.mem_append.1 hmem with hmem | hmem
    · exact hdecl id s ⟨c, lookup_eq_ok_iff.1 hc, hmem⟩
    · refine hstack s ((List.dropWhile_suffix (isVisited visited)).subset ?_)
      rw [hs]
      exact List.mem_cons_of_mem _ hmem

theorem supertypes_total {t : ClassTable} (hdecl : t.SupertypesDeclared) {id : ClassId}
    (hid : t.contains id = true) : ∃ cs, t.supertypes id = .ok cs :=
  visit_total hdecl fun s hs => by rw [List.mem_singleton.1 hs]; exact hid

theorem visit_nodup {t : ClassTable} {stack : List ClassId} {visited cs : List Class}
    (hv : (visited.map (·.id)).Nodup) (h : t.visit stack visited = .ok cs) :
    (cs.map (·.id)).Nodup := by
  fun_induction t.visit stack visited with
  | case1 stack visited hs =>
    cases h
    rw [List.map_reverse]
    exact List.nodup_reverse.2 hv
  | case2 stack visited id rest hs e he => cases h
  | case3 stack visited id rest hs c hc ih =>
    refine ih (List.nodup_cons.2 ⟨fun hmem => ?_, hv⟩) h
    have hnew := dropWhile_head hs
    obtain ⟨d, hd, hdc⟩ := List.mem_map.1 hmem
    have hid : c.id = id := find?_id (lookup_eq_ok_iff.1 hc)
    rw [isVisited_iff.2 ⟨d, hd, hdc.trans hid⟩] at hnew
    cases hnew

/-- No class is visited twice. -/
theorem supertypes_nodup {t : ClassTable} {id : ClassId} {cs : List Class}
    (h : t.supertypes id = .ok cs) : (cs.map (·.id)).Nodup :=
  visit_nodup (by simp) h

/-- What is dropped from the stack was visited before. -/
theorem visited_or_mem_dropWhile (visited : List Class) {stack : List ClassId} {s : ClassId}
    (hs : s ∈ stack) : isVisited visited s = true ∨ s ∈ stack.dropWhile (isVisited visited) := by
  rw [← List.takeWhile_append_dropWhile (p := isVisited visited) (l := stack)] at hs
  exact (List.mem_append.1 hs).imp_left List.mem_takeWhile_imp

/-- What lies on the stack is visited, and so are the supertypes of what is visited. -/
theorem visit_closed {t : ClassTable} {stack : List ClassId} {visited cs : List Class}
    (hv : ∀ c ∈ visited, ∀ s ∈ c.supertypeIds, s ∈ stack ∨ isVisited visited s = true)
    (h : t.visit stack visited = .ok cs) :
    (∀ s ∈ stack, isVisited cs s = true) ∧
      ∀ c ∈ cs, ∀ s ∈ c.supertypeIds, isVisited cs s = true := by
  fun_induction t.visit stack visited with
  | case1 stack visited hs =>
    cases h
    have hall : ∀ s, s ∈ stack ∨ isVisited visited s = true →
        isVisited visited.reverse s = true := by
      intro s hs'
      rw [isVisited, List.any_reverse]
      rcases hs' with hs' | hs'
      · rcases visited_or_mem_dropWhile visited hs' with hs' | hs'
        · exact hs'
        · rw [hs] at hs'; cases hs'
      · exact hs'
    exact ⟨fun s hs' => hall s (.inl hs'),
      fun c hc s hs' => hall s (hv c (List.mem_reverse.1 hc) s hs')⟩
  | case2 stack visited id rest hs e he => cases h
  | case3 stack visited id rest hs c hc ih =>
    have hid : c.id = id := find?_id (lookup_eq_ok_iff.1 hc)
    have hnext : ∀ s, s ∈ stack ∨ isVisited visited s = true →
        s ∈ c.supertypeIds ++ rest ∨ isVisited (c :: visited) s = true := by
      intro s hs'
      have hcase : isVisited visited s = true ∨ s ∈ id :: rest := by
        rcases hs' with hs' | hs'
        · rw [← hs]; exact visited_or_mem_dropWhile visited hs'
        · exact .inl hs'
      rcases hcase with hs' | hs'
      · exact .inr (by rw [isVisited, List.any_cons, ← isVisited, hs', Bool.or_true])
      · rcases List.mem_cons.1 hs' with rfl | hs'
        · exact .inr (isVisited_iff.2 ⟨c, List.mem_cons_self .., hid⟩)
        · exact .inl (List.mem_append_right _ hs')
    obtain ⟨hstack, hclosed⟩ := ih (fun d hd s hs' => by
      rcases List.mem_cons.1 hd with rfl | hd
      · exact .inl (List.mem_append_left _ hs')
      · exact hnext s (hv d hd s hs')) h
    refine ⟨fun s hs' => ?_, hclosed⟩
    rcases hnext s (.inl hs') with hs' | hs'
    · exact hstack s hs'
    · obtain ⟨d, hd, rfl⟩ := isVisited_iff.1 hs'
      exact isVisited_iff.2 ⟨d, mem_of_visited h d hd, rfl⟩

theorem direct_mem_of_supertypes {t : ClassTable} {id : ClassId} {cs : List Class}
    (h : t.supertypes id = .ok cs) {c : Class} (hc : c ∈ cs) {b : ClassId} (hb : t.Direct c.id b) :
    ∃ d ∈ cs, d.id = b := by
  obtain ⟨d, hd, hmem⟩ := hb
  cases (found_of_supertypes h c hc).symm.trans hd
  have hclosed := (visit_closed (fun _ hv => by cases hv) h).2
  exact isVisited_iff.1 (hclosed c hc b hmem)

/-- Only classes that the stack leads to are visited. -/
theorem reaches_of_visit {t : ClassTable} {stack : List ClassId} {visited cs : List Class}
    (h : t.visit stack visited = .ok cs) {c : Class} (hc : c ∈ cs) :
    c ∈ visited ∨ ∃ s ∈ stack, ReflTransGen t.Direct s c.id := by
  fun_induction t.visit stack visited with
  | case1 stack visited hs =>
    cases h
    exact .inl (List.mem_reverse.1 hc)
  | case2 stack visited id rest hs e he => cases h
  | case3 stack visited id rest hs d hd ih =>
    have hsub : id :: rest ⊆ stack := hs ▸ (List.dropWhile_suffix (isVisited visited)).subset
    have hid : d.id = id := find?_id (lookup_eq_ok_iff.1 hd)
    rcases ih h with hmem | ⟨s, hs', hreach⟩
    · rcases List.mem_cons.1 hmem with rfl | hmem
      · exact .inr ⟨id, hsub List.mem_cons_self, hid ▸ .refl⟩
      · exact .inl hmem
    · rcases List.mem_append.1 hs' with hs' | hs'
      · exact .inr ⟨id, hsub List.mem_cons_self, .head ⟨d, lookup_eq_ok_iff.1 hd, hs'⟩ hreach⟩
      · exact .inr ⟨s, hsub (List.mem_cons_of_mem id hs'), hreach⟩

/-- The closure holds just the classes that declared supertypes lead to. -/
theorem reaches_iff_of_supertypes {t : ClassTable} {a : ClassId} {cs : List Class}
    (h : t.supertypes a = .ok cs) {b : ClassId} :
    ReflTransGen t.Direct a b ↔ ∃ c ∈ cs, c.id = b := by
  constructor
  · intro hreach
    induction hreach with
    | refl =>
      obtain ⟨c, hc⟩ := find?_of_supertypes h
      obtain ⟨rest, rfl⟩ := supertypes_eq_cons hc h
      exact ⟨c, List.mem_cons_self, find?_id hc⟩
    | tail _ hstep ih =>
      obtain ⟨c, hc, rfl⟩ := ih
      exact direct_mem_of_supertypes h hc hstep
  · rintro ⟨c, hc, rfl⟩
    rcases reaches_of_visit h hc with hmem | ⟨s, hs, hreach⟩
    · cases hmem
    · rw [List.mem_singleton.1 hs] at hreach
      exact hreach

/-- The closure begins with the superclasses, nearest first. -/
theorem visit_chainFrom {t : ClassTable} {n : Nat} {c : Class} {chain : List Class}
    (hc : t.find? c.id = some c) (hchain : t.chainFrom n c = .ok chain) {rest : List ClassId}
    {visited cs : List Class} (hnew : ∀ d ∈ chain, isVisited visited d.id = false)
    (h : t.visit (c.id :: rest) visited = .ok cs) : visited.reverse ++ chain <+: cs := by
  induction n generalizing c chain rest visited with
  | zero => cases hchain
  | succ n ih =>
    obtain ⟨tail, rfl⟩ := chainFrom_eq_cons hchain
    have hs : (c.id :: rest).dropWhile (isVisited visited) = c.id :: rest :=
      List.dropWhile_cons_of_neg (by rw [hnew c (List.mem_cons_self ..)]; simp)
    rw [visit_found hs (lookup_eq_ok_iff.2 hc)] at h
    rcases chainFrom_succ_eq_ok hchain with ⟨-, hnil⟩ | ⟨s, p, ds, hsuper, hp, hd, hcons⟩
    · cases hnil
      rw [← List.reverse_cons]
      exact visited_prefix h
    · cases hcons
      have hfp := lookup_eq_ok_iff.1 hp
      have hid : p.id = s := find?_id hfp
      obtain ⟨more, hmore⟩ := supertypeIds_of_superclassId? hsuper
      rw [hmore, List.cons_append, ← hid] at h
      rw [← hid] at hfp
      have hnodup := chainFrom_ids_nodup hc hchain
      have hprefix : (c :: visited).reverse ++ tail <+: cs := by
        refine ih hfp hd (fun d hd => ?_) h
        have hne : c.id ≠ d.id := fun heq =>
          (List.nodup_cons.1 hnodup).1 (List.mem_map.2 ⟨d, hd, heq.symm⟩)
        rw [isVisited, List.any_cons, ← isVisited, hnew d (List.mem_cons_of_mem _ hd)]
        simp [hne]
      rw [List.reverse_cons, List.append_assoc] at hprefix
      exact hprefix

end ClassTable
end Introspect
