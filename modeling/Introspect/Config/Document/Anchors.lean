import Introspect.Config.Document.Node

/-!
Anchors and aliases.

An anchor is known by a number: how many names were known before it. A name that is anchored again takes
the number that the next new name will take, too. The last node with a number is the one its aliases
stand for, wherever they are.
-/

namespace Introspect
namespace Config
namespace Document

structure Anchors where
  numbers : Dict (List Char) Nat
  /-- The latest comes first; a mapping is no scalar. -/
  targets : List (Nat × Option Scalar)

namespace Anchors

def empty : Anchors := ⟨.empty, []⟩

def define (name : List Char) (target : Option Scalar) (a : Anchors) : Anchors :=
  let n := a.numbers.size
  ⟨a.numbers.insert name n, (n, target) :: a.targets⟩

def number? (a : Anchors) (name : List Char) : Option Nat := a.numbers.find? name

def target? (a : Anchors) (number : Nat) : Option Scalar := (a.targets.lookup number).join

end Anchors

namespace Node

/-- Puts the number of its anchor for the name of an alias, and remembers the node's own anchor. -/
def number? : Node (List Char) → StateT Anchors Option (Node Nat)
  | .alias name => do return .alias (← (← get).number? name)
  | .scalar anchor s => do
    anchor.forM fun name => modify (·.define name (some s))
    return .scalar anchor s

/-- The scalar a node stands for. -/
def scalar? (a : Anchors) : Node Nat → Option Scalar
  | .alias number => a.target? number
  | .scalar _ s => some s

end Node

namespace Entries

def number? (entries : Entries (List Char)) : StateT Anchors Option (Entries Nat) :=
  entries.mapM fun e => return (← e.1.number?, ← e.2.number?)

/-- The scalars of the entries of a mapping with an anchor. -/
def scalars? (anchor : Option (List Char)) (entries : Entries (List Char)) :
    Option (List (Scalar × Scalar)) := do
  let start := anchor.elim Anchors.empty fun name => Anchors.empty.define name none
  let (entries, anchors) ← entries.number?.run start
  entries.mapM fun e => return (← e.1.scalar? anchors, ← e.2.scalar? anchors)

end Entries
end Document
end Config
end Introspect
