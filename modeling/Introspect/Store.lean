import Introspect.Models.Registry

/-!
A store: a registry together with the heap of the instances it describes.
-/

namespace Introspect

structure Store where
  heap : Heap
  registry : Registry
  deriving Inhabited

/-- Computations on a store. What they changed before a failure stays. -/
abbrev StoreM := EStateM Error Store

namespace Store

def new (config : Config) : Store := ⟨.empty, .new config⟩

/-- Runs a computation on the heap. -/
def onHeap {α : Type} (x : HeapM α) : StoreM α := fun s =>
  match x s.heap with
  | .ok a h => .ok a { s with heap := h }
  | .error e h => .error e { s with heap := h }

/-- Runs a computation on the registry. -/
def onRegistry {α : Type} (x : RegistryM α) : StoreM α := fun s =>
  match x s.registry with
  | .ok a r => .ok a { s with registry := r }
  | .error e r => .error e { s with registry := r }

end Store
end Introspect
