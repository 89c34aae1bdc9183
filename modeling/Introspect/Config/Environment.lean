import Introspect.Config.Basic
import Introspect.Text.Blank

/-!
Configuration from environment variables.

The variables are read in a fixed order and the first faulty one is reported. Their values are trimmed;
flags are read without regard to ASCII case.
-/

namespace Introspect
namespace Config

open Text

def growthKey : String := "PROPMODEL_MAX_SEQUENCE_GROWTH"

def privateKey : String := "PROPMODEL_PRIVATE_ACCESSORS"

def logKey : String := "PROPMODEL_LOG_SCANS"

def growthOfText (raw : String) : Except Error (Option Nat) :=
  let raw := trim raw
  if ["", "none", "unbounded"].contains raw then .ok none
  else
    match natAtMost (sizeBound - 1) raw.toList with
    | .ok n => .ok (some n)
    | .error fault => .error (.config (.number growthKey raw fault))

def flagOfText (key raw : String) : Except Error Bool :=
  let raw := String.ofList ((trimChars raw.toList).map Char.toLower)
  if ["1", "true", "yes", "on"].contains raw then .ok true
  else if ["0", "false", "no", "off"].contains raw then .ok false
  else .error (.config (.flag key raw))

/-- Reads the text if there is one, else keeps the value. -/
def readOr {α : Type} (read : String → Except Error α) (kept : α) :
    Option String → Except Error α
  | some raw => read raw
  | none => .ok kept

/-- The defaults, overridden by the variables that are set. -/
def ofEnvironment (value? : String → Option String) : Except Error Config := do
  let growthLimit ← readOr growthOfText default.growthLimit (value? growthKey)
  let privateAccessors ←
    readOr (flagOfText privateKey) default.privateAccessors (value? privateKey)
  let logScans ← readOr (flagOfText logKey) default.logScans (value? logKey)
  return { growthLimit, privateAccessors, logScans }

/-- The environment's configuration, or the defaults when it is faulty. -/
def ofEnvironmentOrDefault (value? : String → Option String) : Config :=
  match ofEnvironment value? with
  | .ok c => c
  | .error _ => default

end Config
end Introspect
