import Introspect.Config.Document.Token
import Introspect.Dict

/-!
Nodes of configuration documents.

A text holds at most one document, and its content is a scalar or a mapping of scalars. A node that is
left out is an empty plain scalar.
-/

namespace Introspect
namespace Config
namespace Document

/-! ## Directives of a document -/

/-- What the tags with a handle start with. -/
abbrev Handles := Dict (List Char) (List Char)

namespace Handles

/-- Handles that need no directive. -/
def standard : Handles := .ofList [(['!'], ['!']), (['!', '!'], coreTagStart)]

/-- The handles of a document by its directives; a handle may be declared once. -/
def ofList? (declared : List (List Char × List Char)) : Option Handles :=
  if (declared.map (·.1)).Nodup then
    some (declared.foldl (fun handles d => handles.insert d.1 d.2) standard)
  else none

/-- The tag in full. -/
def resolve? (handles : Handles) (t : Tag) : Option (List Char) :=
  if t.handle.isEmpty then some t.suffix
  else (handles.find? t.handle).map (· ++ t.suffix)

end Handles

namespace Directive

def isVersion : Directive → Bool
  | .version .. => true
  | .handle .. => false

/-- Versions of the notation that are read. -/
def isSupported : Directive → Bool
  | .version major minor => major == 1 && (minor == 1 || minor == 2)
  | .handle .. => true

def declared? : Directive → Option (List Char × List Char)
  | .version .. => none
  | .handle name start => some (name, start)

/-- What directives declare; at most one of them gives a version. -/
def handles? (ds : List Directive) : Option Handles :=
  if ds.all isSupported && (ds.filter isVersion).length ≤ 1 then
    Handles.ofList? (ds.filterMap declared?)
  else none

end Directive

/-- The directives at the start, and the tokens behind them. -/
def spanDirectives : List Token → List Directive × List Token
  | .directive d :: ts => let (ds, ts) := spanDirectives ts; (d :: ds, ts)
  | ts => ([], ts)

/-! ## Nodes -/

/-- A scalar, or an alias of an earlier one that is known by an `α`. -/
inductive Node (α : Type) where
  | alias (target : α)
  | scalar (anchor : Option (List Char)) (s : Scalar)
  deriving Repr

def Node.empty {α : Type} : Node α := .scalar none .empty

structure Properties where
  anchor : Option (List Char)
  tag : Option (List Char)

namespace Properties

/-- An anchor and a tag in either order; both may be left out. -/
def read? (handles : Handles) : List Token → Option (Properties × List Token)
  | .anchor name :: .tag t :: ts => (handles.resolve? t).map fun tag => (⟨some name, some tag⟩, ts)
  | .tag t :: .anchor name :: ts => (handles.resolve? t).map fun tag => (⟨some name, some tag⟩, ts)
  | .anchor name :: ts => some (⟨some name, none⟩, ts)
  | .tag t :: ts => (handles.resolve? t).map fun tag => (⟨none, some tag⟩, ts)
  | ts => some (⟨none, none⟩, ts)

def isEmpty (p : Properties) : Bool := p.anchor.isNone && p.tag.isNone

/-- The scalar with these properties. -/
def scalar (p : Properties) (style : ScalarStyle) (chars : List Char) : Scalar :=
  ⟨style, p.tag, chars⟩

/-- The scalar left out behind properties, of which there is at least one. -/
def scalarLeftOut? (p : Properties) : Option Scalar :=
  if p.isEmpty then none else some (p.scalar .plain [])

end Properties

/-- A node of a mapping, and the tokens behind it. -/
def node? (handles : Handles) : List Token → Option (Node (List Char) × List Token)
  | .alias name :: ts => some (.alias name, ts)
  | ts => do
    let (p, ts) ← Properties.read? handles ts
    match ts with
    | .scalar style chars :: ts => return (.scalar p.anchor (p.scalar style chars), ts)
    | ts => return (.scalar p.anchor (← p.scalarLeftOut?), ts)

/-- A node that is left out when the next token is one of those that may come behind it. -/
def nodeBefore? (ends : Token → Bool) (handles : Handles) (ts : List Token) :
    Option (Node (List Char) × List Token) :=
  if ts.head?.any ends then some (.empty, ts) else node? handles ts

/-! ## Mappings -/

abbrev Entries (α : Type) := List (Node α × Node α)

def endsBlockNode (t : Token) : Bool := t == .key || t == .value || t == .blockEnd

/-- Entries of a block mapping up to its end, and the tokens behind it. -/
def blockEntries? (handles : Handles) :
    Nat → List Token → Option (Entries (List Char) × List Token)
  | 0, _ => none
  | _ + 1, .blockEnd :: ts => some ([], ts)
  | n + 1, .key :: ts => do
    let (k, ts) ← nodeBefore? endsBlockNode handles ts
    let (v, ts) ←
      match ts with
      | .value :: ts => nodeBefore? endsBlockNode handles ts
      | ts => some (.empty, ts)
    let (more, ts) ← blockEntries? handles n ts
    return ((k, v) :: more, ts)
  | _ + 1, _ => none

def endsFlowValue (t : Token) : Bool := t == .comma || t == .flowEnd

def endsFlowKey (t : Token) : Bool := t == .value || endsFlowValue t

/-- An entry of a flow mapping; one without a key's token has no value. -/
def flowPair? (handles : Handles) :
    List Token → Option ((Node (List Char) × Node (List Char)) × List Token)
  | .key :: ts => do
    let (k, ts) ← nodeBefore? endsFlowKey handles ts
    match ts with
    | .value :: ts =>
      let (v, ts) ← nodeBefore? endsFlowValue handles ts
      return ((k, v), ts)
    | ts => return ((k, .empty), ts)
  | ts => (node? handles ts).map fun (k, ts) => ((k, .empty), ts)

/-- Entries of a flow mapping up to its end, and the tokens behind it. A comma may follow the last. -/
def flowEntries? (handles : Handles) :
    Nat → List Token → Option (Entries (List Char) × List Token)
  | 0, _ => none
  | _ + 1, .flowEnd :: ts => some ([], ts)
  | n + 1, ts => do
    let (e, ts) ← flowPair? handles ts
    match ts with
    | .flowEnd :: ts => return ([e], ts)
    | .comma :: ts =>
      let (more, ts) ← flowEntries? handles n ts
      return (e :: more, ts)
    | _ => none

/-! ## Content -/

inductive Content (α : Type) where
  | scalar (s : Scalar)
  | mapping (anchor : Option (List Char)) (entries : Entries α)
  deriving Repr

namespace Content

def empty {α : Type} : Content α := .scalar .empty

/-- The content of a document, and the tokens behind it. -/
def read? (handles : Handles) (ts : List Token) : Option (Content (List Char) × List Token) := do
  let (p, ts) ← Properties.read? handles ts
  match ts with
  | .scalar style chars :: ts => return (.scalar (p.scalar style chars), ts)
  | .blockStart :: ts =>
    let (entries, ts) ← blockEntries? handles ts.length ts
    return (.mapping p.anchor entries, ts)
  | .flowStart :: ts =>
    let (entries, ts) ← flowEntries? handles ts.length ts
    return (.mapping p.anchor entries, ts)
  | ts => return (.scalar (← p.scalarLeftOut?), ts)

def endsDocument : Token → Bool
  | .directive _ | .documentStart | .documentEnd => true
  | _ => false

/-- The content behind the marker of a document's start, which may be left out. -/
def readMarked? (handles : Handles) (ts : List Token) :
    Option (Content (List Char) × List Token) :=
  if ts.head?.all endsDocument then some (empty, ts) else read? handles ts

/-- The content of the only document of a text. The marker of its start is needed behind directives;
markers of its end may follow. A text without tokens is an empty document. -/
def ofTokens? (ts : List Token) : Option (Content (List Char)) := do
  let (ds, ts) := spanDirectives ts
  let handles ← Directive.handles? ds
  let (content, ts) ←
    match ts with
    | [] => if ds.isEmpty then some (empty, []) else none
    | .documentStart :: ts => readMarked? handles ts
    | ts => if ds.isEmpty then read? handles ts else none
  if ts.all (· == .documentEnd) then return content else none

end Content
end Document
end Config
end Introspect
