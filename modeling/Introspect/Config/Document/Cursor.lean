/-!
A place in the text of a configuration document.

A cursor counts the characters before it and knows its line and column. A carriage return with a line
feed is one line break but two characters.
-/

namespace Introspect
namespace Config
namespace Document

/-- Characters that a document may hold. -/
def isAllowed (c : Char) : Bool :=
  let n := c.toNat
  n == 0x09 || n == 0x0A || n == 0x0D || (0x20 ≤ n && n ≤ 0x7E) || n == 0x85 ||
    (0xA0 ≤ n && n ≤ 0xFFFD) || 0x10000 ≤ n

def isBreak (c : Char) : Bool :=
  c == '\n' || c == '\r' || c.toNat == 0x85 || c.toNat == 0x2028 || c.toNat == 0x2029

def isBlank (c : Char) : Bool := c == ' ' || c == '\t'

def isGap (c : Char) : Bool := isBlank c || isBreak c

/-- Nothing or a gap follows. -/
def endsWord (s : List Char) : Bool := s.head?.all isGap

/-- What a line break counts as in a scalar; line and paragraph separators stay what they are. -/
def breakText (c : Char) : Char :=
  if c.toNat == 0x2028 || c.toNat == 0x2029 then c else '\n'

structure Cursor where
  rest : List Char
  index : Nat
  line : Nat
  column : Nat
  deriving Repr, Inhabited

namespace Cursor

def ofText (text : List Char) : Cursor := ⟨text, 0, 0, 0⟩

def head? (c : Cursor) : Option Char := c.rest.head?

/-- Behind the next `n` characters, none of which breaks the line. -/
def skip (n : Nat) (c : Cursor) : Cursor :=
  { c with rest := c.rest.drop n, index := c.index + n, column := c.column + n }

/-- The longest run of characters with a property, and the cursor behind it. -/
def span (p : Char → Bool) (c : Cursor) : List Char × Cursor :=
  let run := c.rest.takeWhile p
  (run, c.skip run.length)

def skipWhile (p : Char → Bool) (c : Cursor) : Cursor := (c.span p).2

/-- The line break at the cursor as it counts in a scalar, and the start of the next line. -/
def lineBreak? (c : Cursor) : Option (Char × Cursor) :=
  match c.rest with
  | [] => none
  | '\r' :: '\n' :: s => some ('\n', ⟨s, c.index + 2, c.line + 1, 0⟩)
  | b :: s => if isBreak b then some (breakText b, ⟨s, c.index + 1, c.line + 1, 0⟩) else none

/-- Skips a line break if there is one. -/
def skipBreak (c : Cursor) : Cursor := (c.lineBreak?.map (·.2)).getD c

/-- Skips a comment up to the end of its line. -/
def skipComment (c : Cursor) : Cursor :=
  if c.head? == some '#' then c.skipWhile fun ch => !isBreak ch else c

/-- Skips a byte order mark at the start of a line. -/
def skipByteOrderMark (c : Cursor) : Cursor :=
  if c.column == 0 && c.head?.any (·.toNat == 0xFEFF) then c.skip 1 else c

/-- Skips what may end a line: blanks, a comment and the line break. Anything else is refused. -/
def endLine? (c : Cursor) : Option Cursor :=
  let c := (c.skipWhile isBlank).skipComment
  if c.head?.all isBreak then some c.skipBreak else none

/-- The text stands here as a word of its own. -/
def startsWord (word : String) (c : Cursor) : Bool :=
  word.toList.isPrefixOf c.rest && endsWord (c.rest.drop word.length)

/-- At a marker that starts a document. -/
def atDocumentStart (c : Cursor) : Bool := c.column == 0 && c.startsWord "---"

/-- At a marker that ends a document. -/
def atDocumentEnd (c : Cursor) : Bool := c.column == 0 && c.startsWord "..."

def atMarker (c : Cursor) : Bool := c.atDocumentStart || c.atDocumentEnd

end Cursor
end Document
end Config
end Introspect
