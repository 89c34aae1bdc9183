import Introspect.Proofs.Classes.Ancestry

/-!
The order of the supertypes.

The search keeps a stack of classes to visit. What it lists is said here without the stack: a class, then all
that its supertypes lead to, and only then its siblings, each class where it is met first.

* `DepthFirst`: that order, as a relation.
* `DepthFirst.visit`: the search goes through the classes in that order.
* `visit_depthFirst`: so it lists them when it ends.
* `visit_failure`: otherwise it has met an undeclared class.
* `supertypes_preorder`: the supertypes of a class.
-/

namespace Introspect.ClassTable

open Relation

/-! ## The order -/

theorem supertypeIds_eq (c : Class) :
    c.supertypeIds = c.superclassId?.toList ++ c.interfaces.filterMap TypeExpr.raw? := by
  unfold Class.supertypeIds Class.supertypes Class.superclassId?
  rw [List.filterMap_append]
  rcases c.superclass with _ | ty
  · rfl
  · cases hraw : ty.raw? <;> simp [hraw]

/-- `cs` are the classes that the ids lead to, but for those that were seen before: each id is followed down
to the last class above it before the next id is. -/
inductive DepthFirst (t : ClassTable) : List ClassId → List ClassId → List Class → Prop
  | done (seen : List ClassId) : DepthFirst t seen [] []
  | seen {seen ids : List ClassId} {id : ClassId} {cs : List Class} (hid : id ∈ seen)
      (hrest : DepthFirst t seen ids cs) : DepthFirst t seen (id :: ids) cs
  | new {seen ids : List ClassId} {id : ClassId} {c : Class} {above cs : List Class} (hid : id ∉ seen)
      (hc : t.find? id = some c)
      (habove : DepthFirst t (id :: seen)
        (c.superclassId?.toList ++ c.interfaces.filterMap TypeExpr.raw?) above)
      (hrest : DepthFirst t (above.map (·.id) ++ id :: seen) ids cs) :
      DepthFirst t seen (id :: ids) (c :: above ++ cs)

variable {t : ClassTable}

/-- Only which ids were seen matters. -/
theorem DepthFirst.congr {seen seen' ids : List ClassId} {cs : List Class} (h : DepthFirst t seen ids cs)
    (hsame : ∀ id, id ∈ seen ↔ id ∈ seen') : DepthFirst t seen' ids cs := by
  induction h generalizing seen' with
  | done seen => exact .done seen'
  | seen hid _ ih => exact .seen ((hsame _).1 hid) (ih hsame)
  | new hid hc _ _ ihabove ih =>
    refine .new (fun h => hid ((hsame _).2 h)) hc (ihabove fun a => ?_) (ih fun a => ?_)
    · simp [hsame]
    · simp [hsame]

/-- The ids of a list are followed one part of the list after the other. -/
theorem DepthFirst.of_append {seen ids more : List ClassId} {cs : List Class}
    (h : DepthFirst t seen (ids ++ more) cs) :
    ∃ first rest, DepthFirst t seen ids first ∧
      DepthFirst t (first.map (·.id) ++ seen) more rest ∧ cs = first ++ rest := by
  induction ids generalizing seen cs with
  | nil => exact ⟨[], cs, .done seen, h, rfl⟩
  | cons id ids ih =>
    cases h with
    | seen hid hrest =>
      obtain ⟨first, rest, hfirst, hmore, rfl⟩ := ih hrest
      exact ⟨first, rest, .seen hid hfirst, hmore, rfl⟩
    | @new _ _ _ c above cs hid hc habove hrest =>
      obtain ⟨first, rest, hfirst, hmore, rfl⟩ := ih hrest
      refine ⟨c :: above ++ first, rest, .new hid hc habove hfirst, hmore.congr fun a => ?_,
        by simp⟩
      have hcid : c.id = id := find?_id hc
      simp only [List.map_append, List.map_cons, List.mem_append, List.mem_cons, hcid]
      tauto

/-! ## The search -/

theorem isVisited_iff_mem {visited : List Class} {id : ClassId} :
    isVisited visited id = true ↔ id ∈ visited.map (·.id) := by
  simp [isVisited]

/-- An id that was visited is passed over. -/
theorem visit_skip {visited : List Class} {id : ClassId} (hid : isVisited visited id = true)
    (stack : List ClassId) : t.visit (id :: stack) visited = t.visit stack visited := by
  have hdrop : (id :: stack).dropWhile (isVisited visited) = stack.dropWhile (isVisited visited) :=
    List.dropWhile_cons_of_pos hid
  cases hs : stack.dropWhile (isVisited visited) with
  | nil => rw [visit_nil hs, visit_nil (hdrop.trans hs)]
  | cons next rest =>
    cases hc : t.lookup next with
    | error e => rw [visit_unknown hs hc, visit_unknown (hdrop.trans hs) hc]
    | ok c => rw [visit_found hs hc, visit_found (hdrop.trans hs) hc]

/-- The search visits what the ids on top of its stack lead to, and is then left with the rest. -/
theorem DepthFirst.visit {seen ids : List ClassId} {cs : List Class} (h : DepthFirst t seen ids cs)
    (stack : List ClassId) {visited : List Class}
    (hseen : ∀ id, id ∈ seen ↔ isVisited visited id = true) :
    t.visit (ids ++ stack) visited = t.visit stack (cs.reverse ++ visited) := by
  induction h generalizing stack visited with
  | done seen => rfl
  | @seen seen ids id cs hid _ ih =>
    rw [List.cons_append, visit_skip ((hseen id).1 hid), ih stack hseen]
  | @new seen ids id c above cs hid hc _ _ ihabove ih =>
    have hnew : ¬ isVisited visited id = true := fun h => hid ((hseen id).2 h)
    have hdrop : (id :: (ids ++ stack)).dropWhile (isVisited visited) = id :: (ids ++ stack) :=
      List.dropWhile_cons_of_neg hnew
    have hcid : c.id = id := find?_id hc
    rw [List.cons_append, visit_found hdrop (lookup_eq_ok_iff.2 hc), supertypeIds_eq,
      ihabove (ids ++ stack), ih stack]
    · simp
    · intro a
      simp [isVisited_iff_mem, hseen, hcid]
    · intro a
      simp [isVisited_iff_mem, hseen, hcid]

/-- What a search lists when it ends: what it has visited before, and what the stack leads to. -/
theorem visit_depthFirst {stack : List ClassId} {visited cs : List Class}
    (h : t.visit stack visited = .ok cs) :
    ∃ new, DepthFirst t (visited.map (·.id)) stack new ∧ cs = visited.reverse ++ new := by
  -- the ids that the search passes over
  have skipped : ∀ {stack rest : List ClassId} {visited new : List Class},
      stack.dropWhile (isVisited visited) = rest →
      DepthFirst t (visited.map (·.id)) rest new → DepthFirst t (visited.map (·.id)) stack new := by
    intro stack rest visited new hrest hnew
    induction stack with
    | nil => subst hrest; exact hnew
    | cons id stack ih =>
      by_cases hid : isVisited visited id = true
      · rw [List.dropWhile_cons_of_pos hid] at hrest
        exact .seen (isVisited_iff_mem.1 hid) (ih hrest)
      · rw [List.dropWhile_cons_of_neg hid] at hrest
        exact hrest ▸ hnew
  fun_induction t.visit stack visited with
  | case1 stack visited hs =>
    cases h
    exact ⟨[], skipped hs (.done _), by simp⟩
  | case2 stack visited id rest hs e he => cases h
  | case3 stack visited id rest hs c hc ih =>
    obtain ⟨new, hnew, rfl⟩ := ih h
    obtain ⟨above, cs, habove, hcs, rfl⟩ := hnew.of_append
    have hfound : t.find? id = some c := lookup_eq_ok_iff.1 hc
    have hcid : c.id = id := find?_id hfound
    rw [List.map_cons, hcid] at habove hcs
    refine ⟨c :: above ++ cs, skipped hs (.new (fun hid => ?_) hfound (supertypeIds_eq c ▸ habove) hcs),
      by simp⟩
    have hunseen := dropWhile_head hs
    rw [isVisited_iff_mem.2 hid] at hunseen
    cases hunseen

/-- A search that fails has met a class that is not declared. -/
theorem visit_failure {stack : List ClassId} {visited : List Class} {e : Error}
    (h : t.visit stack visited = .error e) :
    ∃ s ∈ stack, ∃ u, ReflTransGen t.Direct s u ∧ t.find? u = none ∧ e = .unknownClass u := by
  fun_induction t.visit stack visited with
  | case1 stack visited hs => cases h
  | case2 stack visited id rest hs e' he =>
    cases h
    have hid : id ∈ stack := (List.dropWhile_suffix (isVisited visited)).subset (by rw [hs]; simp)
    obtain ⟨hnone, rfl⟩ := lookup_eq_error_iff.1 he
    exact ⟨id, hid, id, .refl, hnone, rfl⟩
  | case3 stack visited id rest hs c hc ih =>
    have hsub : id :: rest ⊆ stack := hs ▸ (List.dropWhile_suffix (isVisited visited)).subset
    obtain ⟨s, hmem, u, hreach, hu⟩ := ih h
    rcases List.mem_append.1 hmem with hmem | hmem
    · exact ⟨id, hsub List.mem_cons_self, u, .head ⟨c, lookup_eq_ok_iff.1 hc, hmem⟩ hreach, hu⟩
    · exact ⟨s, hsub (List.mem_cons_of_mem id hmem), u, hreach, hu⟩

/-! ## The supertypes of a class -/

theorem supertypes_eq_ok_iff {id : ClassId} {cs : List Class} :
    t.supertypes id = .ok cs ↔ DepthFirst t [] [id] cs := by
  constructor
  · intro h
    obtain ⟨new, hnew, rfl⟩ := visit_depthFirst h
    exact hnew
  · intro h
    have hvisit : t.visit [id] [] = t.visit [] (cs.reverse ++ []) :=
      h.visit [] fun a => by simp [isVisited]
    rw [supertypes, hvisit, visit_nil rfl, List.append_nil, List.reverse_reverse]

/-- The classes that are listed are those that the id leads to. -/
theorem mem_supertypes_iff {id : ClassId} {cs : List Class} {c : Class} (hcs : t.supertypes id = .ok cs) :
    c ∈ cs ↔ ReflTransGen t.Direct id c.id ∧ t.find? c.id = some c := by
  constructor
  · intro hc
    exact ⟨(reaches_iff_of_supertypes hcs).2 ⟨c, hc, rfl⟩, found_of_supertypes hcs c hc⟩
  · rintro ⟨hreach, hfound⟩
    obtain ⟨d, hd, hid⟩ := (reaches_iff_of_supertypes hcs).1 hreach
    have hsame := found_of_supertypes hcs d hd
    rw [hid, hfound] at hsame
    exact Option.some.inj hsame ▸ hd

/-- Either some class that the id leads to is not declared, and then the search reports one, or it lists the
classes that the id leads to: the class of the id first, each of them once, and nothing else, in depth-first
order with the superclass before the interfaces. No other list is in that order. -/
theorem supertypes_preorder (t : ClassTable) (id : ClassId) :
    ((∃ u, t.supertypes id = .error (.unknownClass u)) ↔
        ∃ u, ReflTransGen t.Direct id u ∧ t.find? u = none) ∧
      ((¬ ∃ u, ReflTransGen t.Direct id u ∧ t.find? u = none) →
        ∃ cs, t.supertypes id = .ok cs ∧ (∃ c rest, cs = c :: rest ∧ t.find? id = some c) ∧
          (cs.map (·.id)).Nodup ∧
          (∀ c, c ∈ cs ↔ ReflTransGen t.Direct id c.id ∧ t.find? c.id = some c) ∧
          ∀ cs', DepthFirst t [] [id] cs' ↔ cs' = cs) ∧
      ∀ e, t.supertypes id = .error e →
        ∃ u, e = .unknownClass u ∧ ReflTransGen t.Direct id u ∧ t.find? u = none := by
  have hfailure : ∀ e, t.supertypes id = .error e →
      ∃ u, e = .unknownClass u ∧ ReflTransGen t.Direct id u ∧ t.find? u = none := by
    intro e he
    obtain ⟨s, hs, u, hreach, hu, rfl⟩ := visit_failure he
    rw [List.mem_singleton.1 hs] at hreach
    exact ⟨u, rfl, hreach, hu⟩
  refine ⟨⟨?_, ?_⟩, ?_, hfailure⟩
  · rintro ⟨u, hu⟩
    obtain ⟨w, -, hw⟩ := hfailure _ hu
    exact ⟨w, hw⟩
  · rintro ⟨u, hreach, hu⟩
    cases hcs : t.supertypes id with
    | error e =>
      obtain ⟨w, rfl, -⟩ := hfailure e hcs
      exact ⟨w, rfl⟩
    | ok cs =>
      obtain ⟨c, hc, rfl⟩ := (reaches_iff_of_supertypes hcs).1 hreach
      rw [found_of_supertypes hcs c hc] at hu
      cases hu
  · intro hdeclared
    cases hcs : t.supertypes id with
    | error e =>
      obtain ⟨u, -, hu⟩ := hfailure e hcs
      exact absurd ⟨u, hu⟩ hdeclared
    | ok cs =>
      obtain ⟨c, hc⟩ := find?_of_supertypes hcs
      obtain ⟨rest, hrest⟩ := supertypes_eq_cons hc hcs
      refine ⟨cs, rfl, ⟨c, rest, hrest, hc⟩, supertypes_nodup hcs, fun d => mem_supertypes_iff hcs,
        fun cs' => ?_⟩
      rw [← supertypes_eq_ok_iff, hcs]
      exact ⟨fun h => (Except.ok.inj h).symm, fun h => by rw [h]⟩

end Introspect.ClassTable
