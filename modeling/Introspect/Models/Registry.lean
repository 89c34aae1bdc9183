import Introspect.Classes.Resolution
import Introspect.Classes.Supertypes
import Introspect.Config.Basic
import Introspect.Describe.Types
import Introspect.Models.Accessors
import Introspect.Models.Model

/-!
The registry: class table, codecs, configuration and the cache of models.

A model is cached before it is initialized, so that recursive types find themselves. Entries of the
cache are never removed, and contents never change once they are there. The journal keeps what the
library logs.
-/

namespace Introspect

inductive LogLevel where
  | error | warn | debug | trace
  deriving DecidableEq, Repr, Inhabited

namespace LogLevel

def word : LogLevel → String
  | .error => "ERROR"
  | .warn => "WARN"
  | .debug => "DEBUG"
  | .trace => "TRACE"

/-- Zero for the gravest level. -/
def rank : LogLevel → Nat
  | .error => 0
  | .warn => 1
  | .debug => 2
  | .trace => 3

end LogLevel

structure LogLine where
  level : LogLevel
  text : String
  deriving DecidableEq, Repr, Inhabited

def LogLine.display (l : LogLine) : String := l.level.word ++ " " ++ l.text

structure Registry where
  classes : ClassTable
  codecs : CodecTable
  /-- A model's id is its place in this list. -/
  models : List Model
  contents : Dict Nat Contents
  config : Config
  /-- The order in which a scan visits the accessor pairs it finds. -/
  order : VisitOrder
  /-- False once the registry is dropped; its models live on. -/
  live : Bool
  /-- Latest line first. -/
  journal : List LogLine
  deriving Inhabited

/-- Computations on a registry. What they changed before a failure stays. -/
abbrev RegistryM := EStateM Error Registry

namespace Registry

def new (config : Config) : Registry where
  classes := .builtin
  codecs := .builtin
  models := []
  contents := .empty
  config := config
  order := .appearance
  live := true
  journal := []

def logged (r : Registry) (level : LogLevel) (text : String) : Registry :=
  { r with journal := ⟨level, text⟩ :: r.journal }

/-- The lines of the journal at a level or graver, in order of their texts. -/
def linesUpTo (r : Registry) (level : LogLevel) : List String :=
  let shown := r.journal.filter fun l => l.level.rank ≤ level.rank
  (shown.map LogLine.display).mergeSort fun a b => decide (a ≤ b)

def clearJournal (r : Registry) : Registry := { r with journal := [] }

/-- The registry, with another order for scans. -/
def reordered (r : Registry) (order : VisitOrder) : Registry := { r with order }

/-- The registry after it is dropped. -/
def dropped (r : Registry) : Registry := { r with live := false }

/-! ## Steps -/

def log (level : LogLevel) (text : String) : RegistryM Unit := modify (·.logged level text)

/-- Runs a computation on the class table. -/
def onTable {α : Type} (x : TableM α) : RegistryM α := fun r =>
  match x r.classes with
  | .ok a t => .ok a { r with classes := t }
  | .error e t => .error e { r with classes := t }

def requireLive : RegistryM Unit := do
  if !(← get).live then throw .registryDropped

/-! ## Classes and codecs -/

/-- Adds a class to the table. -/
def define (c : Class) : RegistryM ClassId := do
  let t ← ofExcept ((← get).classes.define c)
  modify fun r => { r with classes := t }
  log .debug ("[classes] declared " ++ c.id.name ++ " (" ++ c.kind.describe ++ ")")
  return c.id

def registerCodec (id : ClassId) (codec : Codec) : RegistryM Unit := do
  log .debug ("[codec] registered codec for " ++ id.name)
  modify fun r => { r with codecs := r.codecs.register id codec }

def setConfig (config : Config) : RegistryM Unit := modify fun r => { r with config }

/-! ## Cache -/

def findModel? (r : Registry) (key : ModelKey) : Option Model := r.models.find? (·.key = key)

/-- The kind of the model of a class with type arguments. -/
def kindOf (r : Registry) (c : Class) (codec : Option Codec) (args : List TypeExpr) : ModelKind :=
  if r.classes.isAssignable .list c.id then .list
  else if r.classes.isAssignable .map c.id then .map
  else if c.isArray then .array
  else if codec.isSome then .scalar
  else if !args.isEmpty then .generic
  else .object

def keyOf (kind : ModelKind) (raw : ClassId) (args : List TypeExpr) : ModelKey :=
  ⟨raw, if kind.hasArguments then args else []⟩

def typeOf (kind : ModelKind) (raw : ClassId) (concrete : TypeExpr) : TypeExpr :=
  if kind.hasArguments then concrete else .named raw

/-- The cached model of a class with type arguments, made on first use. -/
def cachedModel (concrete : TypeExpr) (c : Class) (raw : ClassId) (args : List TypeExpr) :
    RegistryM Model := do
  let r ← get
  let codec := r.codecs.find? c
  let kind := r.kindOf c codec args
  let key := keyOf kind raw args
  match r.findModel? key with
  | some m => return m
  | none =>
    let m : Model :=
      { id := r.models.length, key, type := typeOf kind raw concrete, cls := c, kind, codec }
    log .trace ("[model] created " ++ m.type.display ++ " (" ++ kind.label ++ ")")
    modify fun r => { r with models := r.models ++ [m] }
    return m

/-- The search of `modelFor`; it goes on from a synthetic class to its resolved superclass. -/
def modelWithin : Nat → TypeExpr → RegistryM Model
  | 0, concrete => throw (.endless concrete.rawClass)
  | n + 1, concrete =>
    match concrete.parts? with
    | none => throw (.internal (.unresolvedType concrete))
    | some (raw, args) => do
      let c ← ofExcept ((← get).classes.lookup raw)
      match c.synthetic, c.superclass with
      | true, some superclass => do
        let resolved ← onTable (ClassTable.resolve superclass concrete)
        modelWithin n resolved
      | _, _ => cachedModel concrete c raw args

/-- A search that ends is not changed by more redirections. -/
theorem modelWithin_succ {n : Nat} {ty : TypeExpr} {r r' : Registry} {m : Model}
    (h : modelWithin n ty r = .ok m r') : modelWithin (n + 1) ty r = .ok m r' := by
  induction n generalizing ty r with
  | zero => cases h
  | succ n ih =>
    rw [modelWithin] at h ⊢
    rcases hp : ty.parts? with _ | ⟨raw, args⟩
    · simp only [hp] at h
      cases h
    · simp only [hp] at h ⊢
      simp only [bind, EStateM.bind] at h ⊢
      generalize (get : RegistryM Registry) r = x at h ⊢
      cases x with
      | error e s => cases h
      | ok t s =>
        simp only at h ⊢
        generalize (ofExcept (t.classes.lookup raw) : RegistryM Class) s = y at h ⊢
        cases y with
        | error e s => cases h
        | ok c s =>
          simp only at h ⊢
          cases hs : c.synthetic <;> rcases hc : c.superclass with _ | superclass <;>
            simp only [hs, hc, EStateM.bind] at h ⊢ <;> try exact h
          generalize onTable (ClassTable.resolve superclass ty) s = z at h ⊢
          cases z with
          | error e s => cases h
          | ok resolved s => exact ih h

/-- How many types `modelFor` passes before it gives up. Redirections that end may be far more than the
classes of the table: a synthetic class that nests another one in itself takes twice as many. -/
def redirectionLimit : Nat := 0x1000000

/-- The cached model, perhaps not initialized, of a resolved type. -/
def modelFor (concrete : TypeExpr) : RegistryM Model := modelWithin redirectionLimit concrete

def contents? (r : Registry) (m : Model) : Option Contents := r.contents.find? m.id

def isInitialized (r : Registry) (m : Model) : Bool := (r.contents? m).isSome

/-- Number of cached models. -/
def size (r : Registry) : Nat := r.models.length

/-! ## Acceptance -/

/-- The value may be stored in a property of the model. Null always may; primitives accept only their
own kind. -/
def accepts (r : Registry) (m : Model) (v : Value) : Bool :=
  if v.isNull then true
  else
    match m.cls.primitiveKind? with
    | some kind => v.primitiveKind? = some kind
    | none =>
      match v.runtimeClass? with
      | some runtime => r.live && r.classes.isAssignable m.raw runtime
      | none => false

end Registry
end Introspect
