/-!
Declaration modifiers.
-/

namespace Introspect

structure Modifiers where
  isPublic : Bool := false
  isProtected : Bool := false
  isPrivate : Bool := false
  isStatic : Bool := false
  isFinal : Bool := false
  isNative : Bool := false
  isAbstract : Bool := false
  isTransient : Bool := false
  isBridge : Bool := false
  isSynthetic : Bool := false
  deriving DecidableEq, Repr, Inhabited

namespace Modifiers

def none : Modifiers := {}

def publicOnly : Modifiers := { isPublic := true }

def privateOnly : Modifiers := { isPrivate := true }

def union (a b : Modifiers) : Modifiers where
  isPublic := a.isPublic || b.isPublic
  isProtected := a.isProtected || b.isProtected
  isPrivate := a.isPrivate || b.isPrivate
  isStatic := a.isStatic || b.isStatic
  isFinal := a.isFinal || b.isFinal
  isNative := a.isNative || b.isNative
  isAbstract := a.isAbstract || b.isAbstract
  isTransient := a.isTransient || b.isTransient
  isBridge := a.isBridge || b.isBridge
  isSynthetic := a.isSynthetic || b.isSynthetic

/-- Each modifier with its word and its bit, in the order in which they are shown. -/
def vocabulary : List (String × Nat × (Modifiers → Bool) × Modifiers) :=
  [("public", 1, isPublic, { isPublic := true }),
   ("protected", 2, isProtected, { isProtected := true }),
   ("private", 4, isPrivate, { isPrivate := true }),
   ("static", 8, isStatic, { isStatic := true }),
   ("final", 16, isFinal, { isFinal := true }),
   ("native", 32, isNative, { isNative := true }),
   ("abstract", 64, isAbstract, { isAbstract := true }),
   ("transient", 128, isTransient, { isTransient := true }),
   ("bridge", 256, isBridge, { isBridge := true }),
   ("synthetic", 512, isSynthetic, { isSynthetic := true })]

def words (m : Modifiers) : List String :=
  (vocabulary.filter fun e => e.2.2.1 m).map (·.1)

/-- The modifiers as a bit set. -/
def bits (m : Modifiers) : Nat :=
  ((vocabulary.filter fun e => e.2.2.1 m).map (·.2.1)).foldl (· + ·) 0

/-- The modifiers named by a list of words; other words are ignored. -/
def ofWords (ws : List String) : Modifiers :=
  (vocabulary.filter fun e => ws.contains e.1).foldl (fun m e => m.union e.2.2.2) none

def describe (m : Modifiers) : String := "Modifiers(" ++ " ".intercalate m.words ++ ")"

end Modifiers
end Introspect
