import Introspect.Models.Walk
import Introspect.Proofs.Models.Contents

/-!
Access to instances through models: reading, writing and observing properties and walking an instance
change the heap, but of the registry at most what an attempt to initialize the model itself may change.

* `Registry.Steps`, `Store.Steps`: a computation makes the registry take a step.
* `read_steps`, `write_steps`, `observe_steps`: access through a property.
* `get_steps`, `set_steps`, `walk_steps`: whatever is asked of a model.
-/

namespace Introspect

open Registry

namespace Registry

variable {α : Type} {subject : Option Model} {change : Option Change}

/-- From a valid registry that holds the model in question, the registry makes a step. -/
def Steps (subject : Option Model) (change : Option Change) (r r' : Registry) : Prop :=
  r.Valid → (∀ m, subject = some m → m ∈ r.models) → Step subject change r r'

theorem Steps.refl (r : Registry) : Steps subject change r r :=
  fun hv hm => Step.refl hv hm change

theorem Steps.trans (r s t : Registry) (h : Steps subject change r s)
    (h' : Steps subject change s t) : Steps subject change r t := by
  intro hv hm
  have hst := h hv hm
  exact hst.trans (h' hst.valid fun m hs => hst.models.subset (hm m hs))

theorem steps_of_keeps {x : RegistryM α} {Q : α → Registry → Prop} (hx : ∀ r, Keeps r x Q) :
    Moves (Steps subject change) x := by
  intro r hv hm
  obtain ⟨hv', hg, -⟩ := hx r r (Grown.refl r) hv
  exact Step.of_grown hg hv' (fun m h => Cached.grown (hm m h) hg) _

end Registry

namespace Store

variable {α : Type} {subject : Option Model} {change : Option Change}

/-- The registry of the store makes a step. -/
def Steps (subject : Option Model) (change : Option Change) (s s' : Store) : Prop :=
  Registry.Steps subject change s.registry s'.registry

theorem Steps.refl (s : Store) : Steps subject change s s := Registry.Steps.refl s.registry

theorem Steps.trans (s t u : Store) (h : Steps subject change s t) (h' : Steps subject change t u) :
    Steps subject change s u := Registry.Steps.trans _ _ _ h h'

theorem onHeap_steps (x : HeapM α) : Moves (Steps subject change) (onHeap x) := by
  intro s hv hm
  unfold after onHeap
  cases x s.heap with
  | ok a h => exact Step.refl hv hm _
  | error e h => exact Step.refl hv hm _

theorem after_onRegistry (x : RegistryM α) (s : Store) :
    (after (onRegistry x) s).registry = after x s.registry := by
  unfold after onRegistry
  cases x s.registry with
  | ok a r => rfl
  | error e r => rfl

theorem heap_after_onRegistry (x : RegistryM α) (s : Store) : (after (onRegistry x) s).heap = s.heap := by
  unfold after onRegistry
  cases x s.registry <;> rfl

theorem onRegistry_eq_ok {x : RegistryM α} {s s' : Store} {a : α}
    (h : onRegistry x s = .ok a s') : ∃ r, x s.registry = .ok a r ∧ s' = { s with registry := r } := by
  unfold onRegistry at h
  cases hx : x s.registry with
  | ok b r => rw [hx] at h; cases h; exact ⟨r, rfl, rfl⟩
  | error e r => rw [hx] at h; cases h

theorem onHeap_eq_ok_iff {x : HeapM α} {s s' : Store} {a : α} :
    onHeap x s = .ok a s' ↔ ∃ h, x s.heap = .ok a h ∧ s' = { s with heap := h } := by
  unfold onHeap
  cases x s.heap with
  | ok b h =>
    constructor
    · intro he; cases he; exact ⟨h, rfl, rfl⟩
    · rintro ⟨h', he, rfl⟩; cases he; rfl
  | error e h =>
    constructor
    · intro he; cases he
    · rintro ⟨h', he, -⟩; cases he

theorem requireLive_eq_ok {s s' : Store} {u : Unit}
    (h : onRegistry Registry.requireLive s = .ok u s') : s' = s := by
  obtain ⟨r, hr, rfl⟩ := onRegistry_eq_ok h
  rw [Registry.requireLive_eq_ok hr]

theorem onRegistry_of_ok {x : RegistryM α} {s : Store} {r : Registry} {a : α}
    (h : x s.registry = .ok a r) : onRegistry x s = .ok a { s with registry := r } := by
  simp only [onRegistry, h]

theorem requireLive_of_live {s : Store} (h : s.registry.live = true) :
    onRegistry Registry.requireLive s = .ok () s :=
  onRegistry_of_ok (by rw [Registry.requireLive_apply, if_pos h])

theorem onRegistry_of_error {x : RegistryM α} {s : Store} {r : Registry} {e : Error}
    (h : x s.registry = .error e r) : onRegistry x s = .error e { s with registry := r } := by
  simp only [onRegistry, h]

theorem onRegistry_steps {x : RegistryM α} (hx : Moves (Registry.Steps subject change) x) :
    Moves (Steps subject change) (onRegistry x) := by
  intro s
  unfold Steps
  rw [after_onRegistry]
  exact hx s.registry

/-! ## Computations that touch no model -/

theorem pure_steps (a : α) : Moves (Steps subject change) (pure a : StoreM α) :=
  Moves.pure Steps.refl a

theorem throw_steps (e : Error) : Moves (Steps subject change) (throw e : StoreM α) :=
  Moves.throw Steps.refl e

theorem get_steps : Moves (Steps subject change) (get : StoreM Store) := Moves.get Steps.refl

theorem ofExcept_steps (x : Except Error α) :
    Moves (Steps subject change) (ofExcept x : StoreM α) := Moves.ofExcept Steps.refl x

theorem bind_steps {β : Type} {x : StoreM α} {f : α → StoreM β}
    (hx : Moves (Steps subject change) x) (hf : ∀ a, Moves (Steps subject change) (f a)) :
    Moves (Steps subject change) (x >>= f) := Moves.bind Steps.trans hx hf

theorem requireLive_steps : Moves (Steps subject change) (onRegistry requireLive) :=
  onRegistry_steps <| steps_of_keeps fun _ => requireLive_keeps

end Store

open Store

/-! ## Properties -/

section Properties

variable {subject : Option Model} {change : Option Change}

theorem Dispatch.call_steps (d : Dispatch) (this : Value) (args : List Value) :
    Moves (Store.Steps subject change) (d.call this args) := by
  unfold Dispatch.call Dispatch.body
  refine bind_steps ?_ fun body => onHeap_steps _
  refine bind_steps requireLive_steps fun _ => bind_steps get_steps fun s => ?_
  refine bind_steps (ofExcept_steps _) fun found => ?_
  split
  · exact pure_steps _
  · split
    · exact pure_steps _
    · exact throw_steps _

theorem checkGrowth_keeps {r : Registry} (ref : Ref) (length index : Nat) (limit : Option Nat) :
    Keeps r (checkGrowth ref length index limit) fun _ _ => True := by
  unfold checkGrowth
  split
  · simp only
    split
    · exact Keeps.bind (log_keeps _ _) fun _ _ _ _ => Keeps.throw _
    · split
      · exact log_keeps _ _
      · exact Keeps.pure fun _ _ => trivial
  · exact Keeps.pure fun _ _ => trivial

theorem writeItem_steps (index : Nat) (limit : Option Nat) (this v : Value) :
    Moves (Store.Steps subject change) (writeItem index limit this v) := by
  unfold writeItem
  refine bind_steps (ofExcept_steps _) fun ref => bind_steps get_steps fun s => ?_
  refine bind_steps ?_ fun _ => bind_steps get_steps fun s => ?_
  · exact onRegistry_steps <| steps_of_keeps fun _ => checkGrowth_keeps _ _ _ _
  refine bind_steps (ofExcept_steps _) fun heap => bind_steps ?_ fun _ => pure_steps _
  exact fun s hv hm => Step.refl hv hm _

theorem writeComponent_steps (name : String) (this v : Value) :
    Moves (Store.Steps subject change) (writeComponent name this v) := by
  unfold writeComponent
  refine bind_steps requireLive_steps fun _ => bind_steps (ofExcept_steps _) fun ref => ?_
  refine bind_steps get_steps fun s => bind_steps (ofExcept_steps _) fun c => ?_
  split
  · exact throw_steps _
  · exact bind_steps get_steps fun s => onHeap_steps _

namespace Property

theorem read_steps (p : Property) (this : Value) : Moves (Store.Steps subject change) (p.read this) := by
  unfold read
  split
  · exact Dispatch.call_steps _ _ _
  all_goals exact onHeap_steps _

theorem write_steps (p : Property) (this v : Value) :
    Moves (Store.Steps subject change) (p.write this v) := by
  unfold write
  split
  · exact bind_steps (Moves.discard (Dispatch.call_steps _ _ _)) fun _ => pure_steps _
  · exact onHeap_steps _
  · exact pure_steps _
  · exact writeComponent_steps _ _ _
  · exact onHeap_steps _
  · exact writeItem_steps _ _ _ _
  · exact onHeap_steps _

theorem observe_steps (p : Property) (this : Value) :
    Moves (Store.Steps subject change) (p.observe this) := by
  unfold observe
  split
  · exact onHeap_steps _
  · exact pure_steps _

end Property

theorem getProperty_steps (this : Value) (p? : Option Property) :
    Moves (Store.Steps subject change) (getProperty this p?) := by
  cases p? with
  | none => exact pure_steps _
  | some p =>
    simp only [getProperty]
    split
    · exact pure_steps _
    · exact p.read_steps this

theorem setProperty_steps (this : Value) (p? : Option Property) (v : Value) :
    Moves (Store.Steps subject change) (setProperty this p? v) := by
  cases p? with
  | none => exact pure_steps _
  | some p =>
    simp only [setProperty]
    split
    · exact pure_steps _
    · refine bind_steps get_steps fun s => ?_
      split
      · exact p.write_steps this v
      · exact throw_steps _

theorem observeProperty_steps (this : Value) (p? : Option Property) :
    Moves (Store.Steps subject change) (observeProperty this p?) := by
  cases p? with
  | none => exact pure_steps _
  | some p =>
    simp only [observeProperty]
    split
    · exact pure_steps _
    · exact p.observe_steps this

end Properties

/-! ## Requests to a model -/

namespace Model

variable {m : Model}

theorem getContents_steps : Moves (Registry.Steps (some m) none) m.getContents :=
  fun _ hv hm => getContents_step hv (hm m rfl)

theorem parameters_steps : Moves (Registry.Steps (some m) none) m.parameters :=
  Moves.bind Registry.Steps.trans getContents_steps fun _ => Moves.pure Registry.Steps.refl _

theorem properties_steps : Moves (Registry.Steps (some m) none) m.properties :=
  Moves.bind Registry.Steps.trans getContents_steps fun _ => Moves.pure Registry.Steps.refl _

theorem itemProperty?_steps (name : String) :
    Moves (Registry.Steps (some m) none) (m.itemProperty? name) := by
  unfold itemProperty?
  split
  · exact Moves.pure Registry.Steps.refl _
  · refine Moves.bind Registry.Steps.trans parameters_steps fun ps => ?_
    split
    · exact Moves.pure Registry.Steps.refl _
    · refine Moves.bind Registry.Steps.trans (steps_of_keeps fun _ => requireLive_keeps) fun _ => ?_
      refine Moves.bind Registry.Steps.trans (Moves.get Registry.Steps.refl) fun _ => ?_
      exact Moves.pure Registry.Steps.refl _

theorem entryProperty?_steps (name : String) :
    Moves (Registry.Steps (some m) none) (m.entryProperty? name) := by
  unfold entryProperty?
  refine Moves.bind Registry.Steps.trans parameters_steps fun ps => ?_
  split
  · split
    · exact Moves.pure Registry.Steps.refl _
    · split
      · exact Moves.pure Registry.Steps.refl _
      · refine Moves.bind Registry.Steps.trans (steps_of_keeps fun _ => log_keeps _ _) fun _ => ?_
        exact Moves.pure Registry.Steps.refl _
  · exact Moves.pure Registry.Steps.refl _

theorem property?_steps (name : String) :
    Moves (Registry.Steps (some m) none) (m.property? name) := by
  unfold property?
  have scanned : Moves (Registry.Steps (some m) none)
      (do return (← m.properties).find? (·.name = name) : RegistryM (Option Property)) :=
    Moves.bind Registry.Steps.trans properties_steps fun _ => Moves.pure Registry.Steps.refl _
  split
  · exact Moves.pure Registry.Steps.refl _
  · exact scanned
  · exact scanned
  · exact itemProperty?_steps name
  · exact itemProperty?_steps name
  · exact entryProperty?_steps name

theorem get_steps (this : Value) (name : String) :
    Moves (Store.Steps (some m) none) (m.get this name) :=
  bind_steps (onRegistry_steps (property?_steps name)) fun p? => getProperty_steps this p?

theorem set_steps (this : Value) (name : String) (v : Value) :
    Moves (Store.Steps (some m) none) (m.set this name v) :=
  bind_steps (onRegistry_steps (property?_steps name)) fun p? => setProperty_steps this p? v

theorem observe_steps (this : Value) (name : String) :
    Moves (Store.Steps (some m) none) (m.observe this name) :=
  bind_steps (onRegistry_steps (property?_steps name)) fun p? => observeProperty_steps this p?

/-! ## Walks -/

theorem walkItems_steps (this : Value) : Moves (Store.Steps (some m) none) (m.walkItems this) := by
  unfold walkItems
  refine bind_steps (onRegistry_steps parameters_steps) fun ps => ?_
  split
  · exact pure_steps _
  · refine bind_steps requireLive_steps fun _ => bind_steps Store.get_steps fun s => ?_
    refine bind_steps (ofExcept_steps _) fun ref => bind_steps Store.get_steps fun t => ?_
    exact pure_steps _

theorem walkEntries_steps (this : Value) : Moves (Store.Steps (some m) none) (m.walkEntries this) := by
  unfold walkEntries
  refine bind_steps (onRegistry_steps parameters_steps) fun ps => ?_
  split
  · split
    · exact pure_steps _
    · refine bind_steps (ofExcept_steps _) fun ref => bind_steps Store.get_steps fun s => ?_
      exact bind_steps (ofExcept_steps _) fun vs => pure_steps _
  · exact pure_steps _

theorem visits_steps (this : Value) : Moves (Store.Steps (some m) none) (m.visits this) := by
  unfold visits
  split
  · exact pure_steps _
  · split
    · exact pure_steps _
    · exact bind_steps (onRegistry_steps properties_steps) fun _ => pure_steps _
    · exact bind_steps (onRegistry_steps properties_steps) fun _ => pure_steps _
    · exact bind_steps (walkItems_steps this) fun _ => pure_steps _
    · exact bind_steps (walkItems_steps this) fun _ => pure_steps _
    · exact bind_steps (walkEntries_steps this) fun _ => pure_steps _

/-- Visits that have their values already are made as they are. -/
theorem mapM_visits (visits : List Visit) (s : Store) :
    (visits.map (pure : Visit → StoreM Visit)).mapM (fun visit => visit) s = .ok visits s := by
  induction visits with
  | nil => rfl
  | cons visit visits ih =>
    have hfirst : (pure visit : StoreM Visit) s = .ok visit s := rfl
    rw [List.map_cons, List.mapM_cons, bind_of_ok hfirst, bind_of_ok ih]
    rfl

/-- A visit that is still to be made reads a property, or has its value already. -/
theorem visit_of_visits {this : Value} {s s' : Store} {vs : List (StoreM Visit)}
    (h : m.visits this s = .ok vs s') :
    ∀ v ∈ vs, (∃ p, v = visitProperty this p) ∨ ∃ x, v = pure x := by
  have mapped : ∀ {α : Type} {x : StoreM (List α)} {f : α → StoreM Visit},
      (do return (← x).map f : StoreM (List (StoreM Visit))) s = .ok vs s' →
        ∃ as : List α, vs = as.map f := by
    intro α x f h
    obtain ⟨as, t, -, h⟩ := bind_eq_ok_iff.1 h
    cases h
    exact ⟨as, rfl⟩
  have read : ∀ {ps : List Property}, vs = ps.map (visitProperty this) → ∀ v ∈ vs,
      (∃ p, v = visitProperty this p) ∨ ∃ x, v = pure x := by
    rintro ps rfl v hv
    obtain ⟨p, -, rfl⟩ := List.mem_map.1 hv
    exact .inl ⟨p, rfl⟩
  have listed : ∀ {xs : List Visit}, vs = xs.map pure → ∀ v ∈ vs,
      (∃ p, v = visitProperty this p) ∨ ∃ x, v = pure x := by
    rintro xs rfl v hv
    obtain ⟨x, -, rfl⟩ := List.mem_map.1 hv
    exact .inr ⟨x, rfl⟩
  unfold visits at h
  by_cases hnull : this.isNull = true
  · rw [if_pos hnull] at h
    cases h
    intro v hv
    cases hv
  · rw [if_neg hnull] at h
    cases hk : m.kind with
    | scalar => simp only [hk] at h; cases h; intro v hv; cases hv
    | object => simp only [hk] at h; obtain ⟨ps, hps⟩ := mapped h; exact read hps
    | generic => simp only [hk] at h; obtain ⟨ps, hps⟩ := mapped h; exact read hps
    | list => simp only [hk] at h; obtain ⟨xs, hxs⟩ := mapped h; exact listed hxs
    | array => simp only [hk] at h; obtain ⟨xs, hxs⟩ := mapped h; exact listed hxs
    | map => simp only [hk] at h; obtain ⟨xs, hxs⟩ := mapped h; exact listed hxs

theorem walk_steps (this : Value) : Moves (Store.Steps (some m) none) (m.walk this) := by
  unfold walk
  refine Moves.bindOf Store.Steps.trans (visits_steps this) fun s vs s' h => ?_
  refine Moves.mapM Store.Steps.refl Store.Steps.trans fun v hv => ?_
  rcases visit_of_visits h v hv with ⟨p, rfl⟩ | ⟨x, rfl⟩
  · exact bind_steps (p.read_steps this) fun _ => pure_steps _
  · exact pure_steps x

end Model
end Introspect
