import Introspect.Classes.Table

/-!
Searches along the hierarchy of a class table.

* `supertypes`: a class followed by all its supertypes, each once, the superclass before the interfaces.
* `isAssignable`: a value of one class may be stored where another class is expected.
* `superclassChain`: a class followed by its superclasses; `chainWithin` is as much of it as is reached in
  a number of steps.
-/

namespace Introspect
namespace ClassTable

theorem find?_id {t : ClassTable} {id : ClassId} {c : Class} (h : t.find? id = some c) :
    c.id = id := by
  have := List.find?_some h
  simpa using this

theorem mem_of_find? {t : ClassTable} {id : ClassId} {c : Class} (h : t.find? id = some c) :
    c ∈ t.classes :=
  List.mem_of_find?_eq_some h

theorem find?_of_lookup {t : ClassTable} {id : ClassId} {c : Class} (h : t.lookup id = .ok c) :
    t.find? id = some c := by
  unfold lookup at h
  split at h
  · next d hd => cases h; exact hd
  · cases h

/-! ## Closure -/

def isVisited (visited : List Class) (id : ClassId) : Bool := visited.any (·.id = id)

/-- Classes of the table that are not visited yet. -/
def unvisited (t : ClassTable) (visited : List Class) : List Class :=
  t.classes.filter fun c => !isVisited visited c.id

theorem length_filter_lt {α : Type} {p q : α → Bool} {xs : List α} (h : ∀ x, q x → p x) {a : α}
    (ha : a ∈ xs) (hp : p a = true) (hq : q a = false) :
    (xs.filter q).length < (xs.filter p).length := by
  induction xs with
  | nil => cases ha
  | cons x xs ih =>
    have le : (xs.filter q).length ≤ (xs.filter p).length := by
      clear ih ha
      induction xs with
      | nil => simp
      | cons y ys ih =>
        cases hy : q y
        · cases hy' : p y <;> simp [hy, hy'] <;> omega
        · simp [hy, h y hy]; exact ih
    rcases List.mem_cons.1 ha with rfl | ha
    · simp [hp, hq]; omega
    · cases hx : q x
      · cases hx' : p x <;> simp [hx, hx'] <;> have := ih ha <;> omega
      · simp [hx, h x hx]; exact ih ha

theorem unvisited_lt {t : ClassTable} {visited : List Class} {id : ClassId} {c : Class}
    (hc : t.lookup id = .ok c) (hv : isVisited visited id = false) :
    (t.unvisited (c :: visited)).length < (t.unvisited visited).length := by
  have hf := find?_of_lookup hc
  have hid := find?_id hf
  refine length_filter_lt (fun x hx => ?_) (mem_of_find? hf) ?_ ?_
  · simp only [isVisited, List.any_cons, Bool.not_or, Bool.and_eq_true] at hx ⊢
    exact hx.2
  · simp [hid, hv]
  · simp [isVisited]

theorem dropWhile_head {α : Type} {p : α → Bool} {xs ys : List α} {a : α}
    (h : xs.dropWhile p = a :: ys) : p a = false := by
  induction xs with
  | nil => cases h
  | cons x xs ih =>
    cases hx : p x
    · simp [hx] at h; rw [← h.1]; exact hx
    · simp [hx] at h; exact ih h

/-- Visits the classes of a stack depth first, each with its supertypes before the rest of the stack;
`visited` holds the latest visit first. -/
def visit (t : ClassTable) (stack : List ClassId) (visited : List Class) :
    Except Error (List Class) :=
  match _hs : stack.dropWhile (isVisited visited) with
  | [] => .ok visited.reverse
  | id :: rest =>
    match _hc : t.lookup id with
    | .error e => .error e
    | .ok c => t.visit (c.supertypeIds ++ rest) (c :: visited)
termination_by (t.unvisited visited).length
decreasing_by exact unvisited_lt _hc (dropWhile_head _hs)

/-- The class and all its supertypes in depth-first order, each once. -/
def supertypes (t : ClassTable) (id : ClassId) : Except Error (List Class) := t.visit [id] []

/-! ## Assignability -/

/-- The target is among the supertypes of the source; not so when one of them is undeclared. -/
def hasSupertype (t : ClassTable) (source target : ClassId) : Bool :=
  match t.supertypes source with
  | .ok cs => cs.any (·.id = target)
  | .error _ => false

/-- A value of class `source` may be stored where `target` is expected. Strict primitives are
assignable only to themselves. -/
def isAssignable (t : ClassTable) (target source : ClassId) : Bool :=
  if target = source then true
  else
    match t.find? source with
    | none => false
    | some c =>
      if c.isStrictPrimitive then false
      else if target = .object then true
      else t.hasSupertype source target

/-! ## Superclass chain -/

def chainFrom (t : ClassTable) : Nat → Class → Except Error (List Class)
  | 0, c => .error (.endless c.id)
  | n + 1, c =>
    match c.superclassId? with
    | none => .ok [c]
    | some s =>
      match t.lookup s with
      | .error e => .error e
      | .ok p =>
        match t.chainFrom n p with
        | .error e => .error e
        | .ok cs => .ok (c :: cs)

/-- The class and its superclasses, nearest first. A chain longer than the table repeats a class, so it
never ends. -/
def superclassChain (t : ClassTable) (c : Class) : Except Error (List Class) :=
  t.chainFrom (t.size + 1) c

/-- The first classes of the chain, until it ends, reaches an undeclared class or has `n` members. -/
def chainWithin (t : ClassTable) : Nat → Class → List Class
  | 0, _ => []
  | n + 1, c =>
    match c.superclassId?.bind t.find? with
    | none => [c]
    | some p => c :: t.chainWithin n p

theorem chainWithin_eq_of_chainFrom {t : ClassTable} {n : Nat} {c : Class} {cs : List Class}
    (h : t.chainFrom n c = .ok cs) : t.chainWithin n c = cs := by
  induction n generalizing c cs with
  | zero => simp [chainFrom] at h
  | succ n ih =>
    unfold chainFrom at h
    unfold chainWithin
    split at h
    · next hs => cases h; simp [hs]
    · next s hs =>
      split at h
      · cases h
      · next p hp =>
        split at h
        · cases h
        · next ds hd =>
          cases h
          simp [hs, find?_of_lookup hp, ih hd]

end ClassTable
end Introspect
