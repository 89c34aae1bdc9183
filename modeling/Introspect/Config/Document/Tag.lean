import Introspect.Config.Document.Inline

/-!
Names of anchors, tags and directives.

A tag is written as a handle with a suffix, and the handle stands for the start of the tag that a
directive gives it.
-/

namespace Introspect
namespace Config
namespace Document

def isNameChar (c : Char) : Bool := c.isAlphanum || c == '_' || c == '-'

/-- The name of an anchor or an alias behind its indicator. A gap or one of a few indicators follows. -/
def anchorName? (c : Cursor) : Option (List Char × Cursor) :=
  let (name, c) := c.span isNameChar
  let ended := c.head?.all fun ch => isGap ch || "?:,]\x7d%@`".toList.contains ch
  if !name.isEmpty && ended then some (name, c) else none

/-! ## Parts of tags -/

/-- Characters of a tag; those that also are flow marks stand only where a tag is written in full. -/
def isTagChar (inFull : Bool) (c : Char) : Bool :=
  isNameChar c || ";/?:@&=+$.%!~*'()".toList.contains c || (inFull && ",[]".toList.contains c)

/-- How many octets the character takes that starts with this one. -/
def octetCount? (octet : Nat) : Option Nat :=
  if octet < 0x80 then some 1
  else if octet < 0xC0 then none
  else if octet < 0xE0 then some 2
  else if octet < 0xF0 then some 3
  else if octet < 0xF8 then some 4
  else none

/-- Octets written behind percent signs that continue a character, and what follows them. -/
def trailingOctets? : Nat → List Char → Option (List Nat × List Char)
  | 0, s => some ([], s)
  | n + 1, '%' :: s => do
    let octet ← hexAt? 2 s
    if 0x80 ≤ octet && octet < 0xC0 then
      let (more, s) ← trailingOctets? n (s.drop 2)
      return (octet :: more, s)
    else none
  | _ + 1, _ => none

/-- The octets of a text of tag characters, in which others are written behind percent signs. -/
def octets? : Nat → List Char → Option (List Nat)
  | 0, _ => some []
  | _, [] => some []
  | n + 1, '%' :: s => do
    let octet ← hexAt? 2 s
    let count ← octetCount? octet
    let (trail, s) ← trailingOctets? (count - 1) (s.drop 2)
    return octet :: trail ++ (← octets? n s)
  | n + 1, c :: s => (octets? n s).map (c.toNat :: ·)

/-- Text of a tag at the cursor, one character for an octet. A zero octet ends it. -/
def tagText? (inFull : Bool) (c : Cursor) : Option (List Char × Cursor) := do
  let (written, c) := c.span (isTagChar inFull)
  let octets ← octets? written.length written
  return ((octets.takeWhile (· ≠ 0)).map Char.ofNat, c)

/-- A handle: an exclamation mark, a name that may be empty, and a second mark unless it is left out. -/
def handle? (c : Cursor) : Option (List Char × Cursor) :=
  if c.head? == some '!' then
    let (name, c) := (c.skip 1).span isNameChar
    if c.head? == some '!' then some ('!' :: name ++ ['!'], c.skip 1) else some ('!' :: name, c)
  else none

/-- The handle has both of its marks. -/
def isClosedHandle (handle : List Char) : Bool := 2 ≤ handle.length && handle.getLast? == some '!'

/-! ## Tags -/

/-- A tag as it is written. A tag in full has the empty handle. -/
structure Tag where
  handle : List Char
  suffix : List Char
  deriving DecidableEq, Repr

namespace Tag

/-- The tag of a single exclamation mark. -/
def bare : List Char := ['!']

/-- A tag between angle brackets, behind the first of them. -/
def inFull? (c : Cursor) : Option (Tag × Cursor) := do
  let start := c.index
  let (suffix, c) ← tagText? true c
  if c.index ≠ start && c.head? == some '>' then return (⟨[], suffix⟩, c.skip 1) else none

/-- A tag with a handle. What is no closed handle belongs to the suffix of the handle `!`. -/
def short? (c : Cursor) : Option (Tag × Cursor) := do
  let (handle, c) ← handle? c
  let start := c.index
  let (suffix, c) ← tagText? false c
  if isClosedHandle handle then
    if c.index ≠ start then return (⟨handle, suffix⟩, c) else none
  else
    let suffix := handle.drop 1 ++ suffix
    return (if suffix.isEmpty then ⟨[], bare⟩ else ⟨bare, suffix⟩, c)

/-- The tag at the cursor. A gap follows it, or in flow style a comma. -/
def read? (inFlow : Bool) (c : Cursor) : Option (Tag × Cursor) := do
  let (tag, c) ←
    if (c.rest.drop 1).head? == some '<' then inFull? (c.skip 2) else short? c
  if endsWord c.rest || (inFlow && c.head? == some ',') then return (tag, c) else none

end Tag

/-! ## Directives -/

inductive Directive where
  | version (major minor : Nat)
  /-- What a tag with this handle starts with. -/
  | handle (name start : List Char)
  deriving DecidableEq, Repr

namespace Directive

/-- A part of a version number has at most nine digits. -/
def versionPart? (c : Cursor) : Option (Nat × Cursor) :=
  let (digits, c) := c.span Char.isDigit
  if digits.length ≤ 9 then (Text.natOfChars? digits).map fun n => (n, c) else none

def version? (c : Cursor) : Option (Directive × Cursor) := do
  let (major, c) ← versionPart? (c.skipWhile isBlank)
  if c.head? == some '.' then
    let (minor, c) ← versionPart? (c.skip 1)
    return (.version major minor, c)
  else none

def handle? (c : Cursor) : Option (Directive × Cursor) := do
  let (name, c) ← Document.handle? (c.skipWhile isBlank)
  let closed := name == Tag.bare || isClosedHandle name
  if closed && c.head?.any isBlank then
    let c := c.skipWhile isBlank
    let (start, last) ← tagText? true c
    if last.index ≠ c.index && endsWord last.rest then return (.handle name start, last) else none
  else none

/-- The directive behind its percent sign, up to the end of its line. -/
def read? (c : Cursor) : Option (Directive × Cursor) := do
  let (name, c) := c.span isNameChar
  if endsWord c.rest then
    let (d, c) ←
      if name = "YAML".toList then version? c
      else if name = "TAG".toList then handle? c
      else none
    return (d, ← c.endLine?)
  else none

end Directive
end Document
end Config
end Introspect
