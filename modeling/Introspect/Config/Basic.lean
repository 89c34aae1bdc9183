import Introspect.Error

/-!
Configuration of a registry.
-/

namespace Introspect

structure Config where
  /-- Most slots a single list or array write may append; none means unbounded. -/
  growthLimit : Option Nat := none
  /-- Private methods are accessor candidates too. -/
  privateAccessors : Bool := false
  /-- Completed scans are logged. -/
  logScans : Bool := true
  deriving DecidableEq, Repr, Inhabited

namespace Config

def default : Config := {}

/-- Sizes and indices are below this bound. -/
def sizeBound : Nat := 0x10000000000000000

end Config
end Introspect
