import Introspect.Config.Document.Cursor
import Introspect.Text.Numeral

/-!
Block scalars: literal ones keep their line breaks, folded ones join their lines.

The first line of the content settles the indentation unless the header gives it.
-/

namespace Introspect
namespace Config
namespace Document

/-- What becomes of the line breaks at the end of a block scalar. -/
inductive Chomping where
  | strip | clip | keep
  deriving DecidableEq, Repr

/-- The sign and the digit behind the indicator of a block scalar. -/
structure BlockHeader where
  chomping : Chomping := .clip
  increment : Option Nat := none

namespace BlockHeader

def chompingAt (c : Cursor) : Option Chomping :=
  if c.head? == some '+' then some .keep else if c.head? == some '-' then some .strip else none

/-- Reads an indentation digit if there is one; zero is refused. -/
def digit? (c : Cursor) : Option (Option Nat × Cursor) :=
  match c.head? with
  | some d =>
    if d == '0' then none
    else if d.isDigit then some (some (Text.digitOf d), c.skip 1)
    else some (none, c)
  | none => some (none, c)

/-- The header up to the end of its line; sign and digit come in either order. -/
def read? (c : Cursor) : Option (BlockHeader × Cursor) := do
  match chompingAt c with
  | some chomping =>
    let (increment, c) ← digit? (c.skip 1)
    return (⟨chomping, increment⟩, ← c.endLine?)
  | none =>
    let (increment, c) ← digit? c
    match increment, chompingAt c with
    | some _, some chomping => return (⟨chomping, increment⟩, ← (c.skip 1).endLine?)
    | _, _ => return (⟨.clip, increment⟩, ← c.endLine?)

end BlockHeader

/-- Skips the spaces before a column; all of them when no column is given. -/
def skipIndent (indent : Option Nat) (c : Cursor) : Cursor :=
  let spaces := (c.rest.takeWhile (· == ' ')).length
  c.skip (indent.elim spaces fun i => min spaces (i - c.column))

/-- Empty lines: their breaks, the largest column reached, and the cursor behind the spaces of the next
line. A tab in the indentation is refused. -/
def emptyLines? (indent : Option Nat) : Nat → Cursor → Option (List Char × Nat × Cursor)
  | 0, c => some ([], c.column, c)
  | n + 1, c =>
    let c := skipIndent indent c
    if indent.all (c.column < ·) && c.head? == some '\t' then none
    else
      match c.lineBreak? with
      | none => some ([], c.column, c)
      | some (b, next) => (emptyLines? indent n next).map fun (more, column, last) =>
          (b :: more, max c.column column, last)

/-- Content between the lines read and the lines to come. -/
structure BlockLines where
  text : List Char := []
  /-- The break of the last line; none before the first line and at the end of the document. -/
  lineEnd : List Char := []
  /-- The breaks of the empty lines behind it. -/
  empty : List Char := []
  /-- The last line starts with a blank. -/
  indented : Bool := false

namespace BlockLines

/-- What stands between the last line and one that starts with a blank or not. Folding turns the break
into a space, or drops it before empty lines; next to an indented line it is kept. -/
def joint (folded indented : Bool) (b : BlockLines) : List Char :=
  if folded && b.lineEnd == ['\n'] && !b.indented && !indented then
    if b.empty.isEmpty then [' '] else b.empty
  else b.lineEnd ++ b.empty

/-- Reads the lines that start at the column `indent`. -/
def read? (folded : Bool) (indent : Nat) : Nat → BlockLines → Cursor → Option (BlockLines × Cursor)
  | 0, b, c => some (b, c)
  | n + 1, b, c =>
    match c.head? with
    | none => some (b, c)
    | some first =>
      if c.column = indent then do
        let (line, c) := c.span fun ch => !isBreak ch
        let text := b.text ++ b.joint folded (isBlank first) ++ line
        let (lineEnd, c) :=
          match c.lineBreak? with
          | some (ch, c) => ([ch], c)
          | none => ([], c)
        let (empty, _, c) ← emptyLines? (some indent) c.rest.length c
        read? folded indent n ⟨text, lineEnd, empty, isBlank first⟩ c
      else some (b, c)

def chomp (chomping : Chomping) (b : BlockLines) : List Char :=
  match chomping with
  | .strip => b.text
  | .clip => b.text ++ b.lineEnd
  | .keep => b.text ++ b.lineEnd ++ b.empty

end BlockLines

/-- A block scalar behind its indicator, in a mapping at the column `block`. -/
def blockScalar? (folded : Bool) (block : Option Nat) (c : Cursor) : Option (List Char × Cursor) := do
  let (header, c) ← BlockHeader.read? c
  let given := header.increment.map (block.getD 0 + ·)
  let (empty, column, c) ← emptyLines? given c.rest.length c
  let indent := given.getD (max 1 (max (block.elim 0 (· + 1)) column))
  let (lines, c) ← BlockLines.read? folded indent c.rest.length { empty } c
  return (lines.chomp header.chomping, c)

end Document
end Config
end Introspect
