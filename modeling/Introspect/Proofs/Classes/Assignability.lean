import Introspect.Proofs.Classes.Growth

/-!
Supertypes and assignability over a growing table.

A closure of supertypes that is complete stays what it is. While a class of the hierarchy is missing,
assignability answers no; it may turn to yes later, and never back.

* `Within.visit`, `Within.supertypes`: complete closures persist.
* `supertypes_of_known`: a closure of the later table whose classes were all known before was complete then.
* `isAssignable_of_complete`: over a complete hierarchy the answer never changes.
* `isAssignable_congr`: nor does it when no missing class is added.
* `Within.chainFrom`: a chain of superclasses that ends persists.
* `superclassChain_of_chainFrom`: a chain that ends is found however long the table is.
-/

namespace Introspect.ClassTable

/-! ## Steps of the closure -/

theorem visit_nil {t : ClassTable} {stack : List ClassId} {visited : List Class}
    (h : stack.dropWhile (isVisited visited) = []) : t.visit stack visited = .ok visited.reverse := by
  rw [visit]
  split
  · rfl
  · next hs => rw [h] at hs; cases hs

theorem visit_unknown {t : ClassTable} {stack rest : List ClassId} {visited : List Class}
    {id : ClassId} {e : Error} (h : stack.dropWhile (isVisited visited) = id :: rest)
    (hc : t.lookup id = .error e) : t.visit stack visited = .error e := by
  rw [visit]
  split
  · next hs => rw [h] at hs; cases hs
  · next hs =>
    rw [h] at hs
    cases hs
    split
    · next he => rw [hc] at he; cases he; rfl
    · next hd => rw [hc] at hd; cases hd

theorem visit_found {t : ClassTable} {stack rest : List ClassId} {visited : List Class}
    {id : ClassId} {c : Class} (h : stack.dropWhile (isVisited visited) = id :: rest)
    (hc : t.lookup id = .ok c) :
    t.visit stack visited = t.visit (c.supertypeIds ++ rest) (c :: visited) := by
  rw [visit]
  split
  · next hs => rw [h] at hs; cases hs
  · next hs =>
    rw [h] at hs
    cases hs
    split
    · next he => rw [hc] at he; cases he
    · next hd => rw [hc] at hd; cases hd; rfl

/-- What was visited is in the closure. -/
theorem mem_of_visited {t : ClassTable} {stack : List ClassId} {visited cs : List Class}
    (h : t.visit stack visited = .ok cs) : ∀ c ∈ visited, c ∈ cs := by
  fun_induction t.visit stack visited with
  | case1 stack visited hs =>
    cases h
    intro c hc
    exact List.mem_reverse.2 hc
  | case2 stack visited id rest hs e he => cases h
  | case3 stack visited id rest hs c hc ih =>
    intro d hd
    exact ih h d (List.mem_cons_of_mem _ hd)

/-- The closure begins with what was visited. -/
theorem visited_prefix {t : ClassTable} {stack : List ClassId} {visited cs : List Class}
    (h : t.visit stack visited = .ok cs) : visited.reverse <+: cs := by
  fun_induction t.visit stack visited with
  | case1 stack visited hs =>
    cases h
    exact List.prefix_refl _
  | case2 stack visited id rest hs e he => cases h
  | case3 stack visited id rest hs c hc ih =>
    refine List.IsPrefix.trans ?_ (ih h)
    rw [List.reverse_cons]
    exact List.prefix_append _ _

theorem Within.visit {t u : ClassTable} (htu : t.Within u) {stack : List ClassId}
    {visited cs : List Class} (h : t.visit stack visited = .ok cs) :
    u.visit stack visited = .ok cs := by
  fun_induction t.visit stack visited with
  | case1 stack visited hs => rw [visit_nil hs, h]
  | case2 stack visited id rest hs e he => cases h
  | case3 stack visited id rest hs c hc ih => rw [visit_found hs (htu.lookup hc), ih h]

/-- The closure needs no class but its own. -/
theorem visit_of_known {t u : ClassTable} (htu : t.Within u) {stack : List ClassId}
    {visited cs : List Class} (h : u.visit stack visited = .ok cs)
    (hknown : ∀ c ∈ cs, t.contains c.id = true) : t.visit stack visited = .ok cs := by
  fun_induction u.visit stack visited with
  | case1 stack visited hs => rw [visit_nil hs, h]
  | case2 stack visited id rest hs e he => cases h
  | case3 stack visited id rest hs c hc ih =>
    have hid : c.id = id := find?_id (lookup_eq_ok_iff.1 hc)
    have hin : t.contains id = true :=
      hid ▸ hknown c (mem_of_visited h c (List.mem_cons_self ..))
    obtain ⟨d, hd⟩ := contains_iff.1 hin
    have hdc : Except.ok d = (Except.ok c : Except Error Class) :=
      (htu.lookup (lookup_eq_ok_iff.2 hd)).symm.trans hc
    cases hdc
    rw [visit_found hs (lookup_eq_ok_iff.2 hd), ih h]

/-- The two tables visit the same when neither the stack nor a class of the smaller table names a class
that only the larger one knows. -/
theorem visit_congr {t u : ClassTable} (htu : t.Within u)
    (hsuper : ∀ id c, t.find? id = some c → ∀ s ∈ c.supertypeIds,
      u.contains s = true → t.contains s = true)
    {stack : List ClassId} {visited : List Class}
    (hstack : ∀ s ∈ stack, u.contains s = true → t.contains s = true) :
    u.visit stack visited = t.visit stack visited := by
  fun_induction t.visit stack visited with
  | case1 stack visited hs => rw [visit_nil hs]
  | case2 stack visited id rest hs e he =>
    have hid : id ∈ stack := by
      refine (List.dropWhile_suffix (isVisited visited)).subset ?_
      rw [hs]
      exact List.mem_cons_self ..
    obtain ⟨hnone, rfl⟩ := lookup_eq_error_iff.1 he
    refine visit_unknown hs (lookup_eq_error_iff.2 ⟨?_, rfl⟩)
    cases hu : u.find? id with
    | none => rfl
    | some c =>
      have := hstack id hid (contains_iff.2 ⟨c, hu⟩)
      rw [contains, hnone] at this
      cases this
  | case3 stack visited id rest hs c hc ih =>
    rw [visit_found hs (htu.lookup hc)]
    refine ih fun s hmem => ?_
    rcases List.mem_append.1 hmem with hmem | hmem
    · exact hsuper id c (lookup_eq_ok_iff.1 hc) s hmem
    · refine hstack s ((List.dropWhile_suffix (isVisited visited)).subset ?_)
      rw [hs]
      exact List.mem_cons_of_mem _ hmem

/-! ## Supertypes -/

theorem Within.supertypes {t u : ClassTable} (htu : t.Within u) {id : ClassId} {cs : List Class}
    (h : t.supertypes id = .ok cs) : u.supertypes id = .ok cs :=
  htu.visit h

theorem supertypes_of_known {t u : ClassTable} (htu : t.Within u) {id : ClassId} {cs : List Class}
    (h : u.supertypes id = .ok cs) (hknown : ∀ c ∈ cs, t.contains c.id = true) :
    t.supertypes id = .ok cs :=
  visit_of_known htu h hknown

/-- Only classes of the table are visited. -/
theorem found_of_visit {t : ClassTable} {stack : List ClassId} {visited cs : List Class}
    (h : t.visit stack visited = .ok cs) (hv : ∀ c ∈ visited, t.find? c.id = some c) :
    ∀ c ∈ cs, t.find? c.id = some c := by
  fun_induction t.visit stack visited with
  | case1 stack visited hs =>
    cases h
    intro c hc
    exact hv c (List.mem_reverse.1 hc)
  | case2 stack visited id rest hs e he => cases h
  | case3 stack visited id rest hs c hc ih =>
    refine ih h fun d hd => ?_
    rcases List.mem_cons.1 hd with rfl | hd
    · have hf := lookup_eq_ok_iff.1 hc
      rw [find?_id hf]
      exact hf
    · exact hv d hd

theorem found_of_supertypes {t : ClassTable} {id : ClassId} {cs : List Class}
    (h : t.supertypes id = .ok cs) : ∀ c ∈ cs, t.find? c.id = some c :=
  found_of_visit h fun c hc => by cases hc

theorem find?_of_supertypes {t : ClassTable} {id : ClassId} {cs : List Class}
    (h : t.supertypes id = .ok cs) : ∃ c, t.find? id = some c := by
  have hs : [id].dropWhile (isVisited []) = [id] := rfl
  cases hc : t.lookup id with
  | ok c => exact ⟨c, lookup_eq_ok_iff.1 hc⟩
  | error e =>
    rw [supertypes, visit_unknown hs hc] at h
    cases h

/-- The class itself is the first of its supertypes. -/
theorem supertypes_eq_cons {t : ClassTable} {id : ClassId} {c : Class} {cs : List Class}
    (hc : t.find? id = some c) (h : t.supertypes id = .ok cs) : ∃ rest, cs = c :: rest := by
  have hs : [id].dropWhile (isVisited []) = [id] := rfl
  rw [supertypes, visit_found hs (lookup_eq_ok_iff.2 hc)] at h
  obtain ⟨rest, hrest⟩ := visited_prefix h
  exact ⟨rest, hrest.symm⟩

/-! ## Assignability -/

theorem isAssignable_of_complete {t u : ClassTable} (htu : t.Within u) {source : ClassId}
    {cs : List Class} (h : t.supertypes source = .ok cs) (target : ClassId) :
    u.isAssignable target source = t.isAssignable target source := by
  obtain ⟨c, hc⟩ := find?_of_supertypes h
  unfold isAssignable hasSupertype
  rw [hc, htu source c hc, h, htu.supertypes h]

theorem Within.isAssignable {t u : ClassTable} (htu : t.Within u) {target source : ClassId}
    (h : t.isAssignable target source = true) : u.isAssignable target source = true := by
  cases hs : t.supertypes source with
  | ok cs => rw [isAssignable_of_complete htu hs]; exact h
  | error e =>
    unfold ClassTable.isAssignable hasSupertype at h ⊢
    split
    · rfl
    · next hne =>
      rw [if_neg hne] at h
      cases hc : t.find? source with
      | none => rw [hc] at h; cases h
      | some c =>
        rw [htu source c hc]
        rw [hc, hs] at h
        simp only at h ⊢
        split
        · next hp => rw [if_pos hp] at h; cases h
        · next hp =>
          rw [if_neg hp] at h
          split
          · rfl
          · next ho => rw [if_neg ho] at h; cases h

theorem isAssignable_congr {t u : ClassTable} (htu : t.Within u) {source : ClassId}
    (hsource : u.contains source = true → t.contains source = true)
    (hsuper : u.supertypes source = t.supertypes source) (target : ClassId) :
    u.isAssignable target source = t.isAssignable target source := by
  have hf : u.find? source = t.find? source := by
    cases hu : u.find? source with
    | none =>
      cases ht : t.find? source with
      | none => rfl
      | some c => rw [htu source c ht] at hu; cases hu
    | some c =>
      obtain ⟨d, hd⟩ := contains_iff.1 (hsource (contains_iff.2 ⟨c, hu⟩))
      rw [hd, ← hu, htu source d hd]
  unfold isAssignable hasSupertype
  rw [hsuper, hf]

/-! ## Superclass chain -/

theorem Within.chainFrom {t u : ClassTable} (htu : t.Within u) {n k : Nat} (hk : n ≤ k) {c : Class}
    {cs : List Class} (h : t.chainFrom n c = .ok cs) : u.chainFrom k c = .ok cs := by
  induction n generalizing k c cs with
  | zero => simp [ClassTable.chainFrom] at h
  | succ n ih =>
    obtain ⟨k, rfl⟩ : ∃ j, k = j + 1 := ⟨k - 1, by omega⟩
    unfold ClassTable.chainFrom at h ⊢
    cases hs : c.superclassId? with
    | none => simp only [hs] at h ⊢; exact h
    | some s =>
      simp only [hs] at h ⊢
      cases hp : t.lookup s with
      | error e => simp only [hp] at h; cases h
      | ok p =>
        rw [htu.lookup hp]
        simp only [hp] at h ⊢
        cases hd : t.chainFrom n p with
        | error e => simp only [hd] at h; cases h
        | ok ds =>
          simp only [hd] at h
          rw [ih (by omega) hd]
          exact h

theorem chainFrom_succ_eq_ok {t : ClassTable} {n : Nat} {c : Class} {cs : List Class}
    (h : t.chainFrom (n + 1) c = .ok cs) :
    c.superclassId? = none ∧ cs = [c] ∨
      ∃ s p ds, c.superclassId? = some s ∧ t.lookup s = .ok p ∧ t.chainFrom n p = .ok ds ∧
        cs = c :: ds := by
  unfold chainFrom at h
  cases hs : c.superclassId? with
  | none => simp only [hs] at h; cases h; exact .inl ⟨rfl, rfl⟩
  | some s =>
    simp only [hs] at h
    cases hp : t.lookup s with
    | error e => simp only [hp] at h; cases h
    | ok p =>
      simp only [hp] at h
      cases hd : t.chainFrom n p with
      | error e => simp only [hd] at h; cases h
      | ok ds =>
        simp only [hd] at h
        cases h
        exact .inr ⟨s, p, ds, rfl, hp, hd, rfl⟩

/-- A class of the chain begins the rest of the chain. -/
theorem chainFrom_suffix {t : ClassTable} {n : Nat} {c p : Class} {cs : List Class}
    (h : t.chainFrom n c = .ok cs) (hp : p ∈ cs) :
    ∃ k ds, t.chainFrom k p = .ok ds ∧ ds <:+ cs := by
  induction n generalizing c cs with
  | zero => cases h
  | succ n ih =>
    rcases chainFrom_succ_eq_ok h with ⟨-, rfl⟩ | ⟨s, q, ds, -, -, hd, rfl⟩
    · cases List.mem_singleton.1 hp
      exact ⟨n + 1, [p], h, List.suffix_refl _⟩
    · rcases List.mem_cons.1 hp with rfl | hp
      · exact ⟨n + 1, p :: ds, h, List.suffix_refl _⟩
      · obtain ⟨k, es, hk, hes⟩ := ih hd hp
        exact ⟨k, es, hk, hes.trans (List.suffix_cons c ds)⟩

theorem chainFrom_unique {t : ClassTable} {n k : Nat} {c : Class} {cs ds : List Class}
    (hc : t.chainFrom n c = .ok cs) (hd : t.chainFrom k c = .ok ds) : cs = ds := by
  have h := ((Within.refl t).chainFrom (Nat.le_max_left n k) hc).symm.trans
    ((Within.refl t).chainFrom (Nat.le_max_right n k) hd)
  cases h
  rfl

theorem chainFrom_nodup {t : ClassTable} {n : Nat} {c : Class} {cs : List Class}
    (h : t.chainFrom n c = .ok cs) : cs.Nodup := by
  induction n generalizing c cs with
  | zero => cases h
  | succ n ih =>
    rcases chainFrom_succ_eq_ok h with ⟨-, rfl⟩ | ⟨s, p, ds, -, -, hd, rfl⟩
    · simp
    · refine List.nodup_cons.2 ⟨fun hmem => ?_, ih hd⟩
      -- a chain that came back to its class would go on as it began
      obtain ⟨k, es, hk, hes⟩ := chainFrom_suffix hd hmem
      have hsame := chainFrom_unique h hk
      have hle := hes.length_le
      rw [← hsame, List.length_cons] at hle
      omega

/-- The classes of the chain of a declared class are declared. -/
theorem found_of_chainFrom {t : ClassTable} {n : Nat} {c : Class} {cs : List Class}
    (hc : t.find? c.id = some c) (h : t.chainFrom n c = .ok cs) : ∀ p ∈ cs, t.find? p.id = some p := by
  induction n generalizing c cs with
  | zero => cases h
  | succ n ih =>
    intro q hq
    rcases chainFrom_succ_eq_ok h with ⟨-, rfl⟩ | ⟨s, p, ds, -, hp, hd, rfl⟩
    · rw [List.mem_singleton.1 hq]
      exact hc
    · rcases List.mem_cons.1 hq with rfl | hq
      · exact hc
      · have hf := lookup_eq_ok_iff.1 hp
        have hid : p.id = s := find?_id hf
        exact ih (hid ▸ hf) hd q hq

theorem chainFrom_of_length {t : ClassTable} {n k : Nat} {c : Class} {cs : List Class}
    (h : t.chainFrom n c = .ok cs) (hk : cs.length ≤ k) : t.chainFrom k c = .ok cs := by
  induction n generalizing k c cs with
  | zero => cases h
  | succ n ih =>
    rcases chainFrom_succ_eq_ok h with ⟨hs, rfl⟩ | ⟨s, p, ds, hs, hp, hd, rfl⟩
    · obtain ⟨j, rfl⟩ : ∃ j, k = j + 1 := ⟨k - 1, by simp at hk; omega⟩
      simp only [chainFrom, hs]
    · obtain ⟨j, rfl⟩ : ∃ j, k = j + 1 := ⟨k - 1, by simp at hk; omega⟩
      simp only [chainFrom, hs, hp, ih hd (by simpa using hk)]

/-- As many steps as the table has classes are enough for every chain that ends. -/
theorem superclassChain_of_chainFrom {t : ClassTable} {n : Nat} {c : Class} {cs : List Class}
    (hc : t.find? c.id = some c) (h : t.chainFrom n c = .ok cs) : t.superclassChain c = .ok cs := by
  have hsub : cs ⊆ t.classes := fun p hp => mem_of_find? (found_of_chainFrom hc h p hp)
  have hle : cs.length ≤ t.size := (chainFrom_nodup h).length_le_of_subset hsub
  exact chainFrom_of_length h (by omega)

end Introspect.ClassTable
