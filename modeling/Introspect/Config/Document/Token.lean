import Introspect.Config.Document.Block
import Introspect.Config.Document.Tag

/-!
Tokens of configuration documents.

Whether a scalar is a key shows only at the colon behind it. So the place of a scalar that may turn out
to be a key is remembered while its line lasts, and at the colon the tokens of a key are put there.
A document holds a single mapping; sequences and mappings inside it are refused here.
-/

namespace Introspect
namespace Config
namespace Document

inductive Token where
  | directive (d : Directive)
  | documentStart
  | documentEnd
  | blockStart
  | blockEnd
  | flowStart
  | flowEnd
  | comma
  | key
  | value
  | anchor (name : List Char)
  | alias (name : List Char)
  | tag (t : Tag)
  | scalar (style : ScalarStyle) (chars : List Char)
  deriving DecidableEq, Repr

/-- Where a key may have started. -/
structure PendingKey where
  /-- Nothing but a key may stand there. -/
  required : Bool
  /-- How many tokens come before it. -/
  place : Nat
  start : Cursor

/-- Most characters from the start of a key to what follows it. -/
def keyWidth : Nat := 1024

/-- The colon of a key stands in its line and not too far away. -/
def PendingKey.isStale (k : PendingKey) (c : Cursor) : Bool :=
  k.start.line < c.line || k.start.index + keyWidth < c.index

structure Tokenizer where
  cursor : Cursor
  /-- The latest token comes first. -/
  tokens : List Token := []
  /-- Column of the open block mapping. -/
  block : Option Nat := none
  inFlow : Bool := false
  /-- A key may start at the cursor. -/
  keyAllowed : Bool := true
  pending : Option PendingKey := none

namespace Tokenizer

def emit (token : Token) (t : Tokenizer) : Tokenizer := { t with tokens := token :: t.tokens }

/-- Puts a token behind the first `place` ones. -/
def insert (place : Nat) (token : Token) (t : Tokenizer) : Tokenizer :=
  { t with tokens := t.tokens.insertIdx (t.tokens.length - place) token }

def skip (n : Nat) (t : Tokenizer) : Tokenizer := { t with cursor := t.cursor.skip n }

def allowKey (keyAllowed : Bool) (t : Tokenizer) : Tokenizer := { t with keyAllowed }

/-- The least column of what belongs to the open mapping's entries. -/
def indent (t : Tokenizer) : Nat := t.block.elim 0 (· + 1)

/-! ## Keys to be -/

/-- Gives up the pending key, unless it is required. -/
def dropPending? (t : Tokenizer) : Option Tokenizer :=
  if t.pending.any (·.required) then none else some { t with pending := none }

/-- Remembers the cursor as the start of a key where a key is allowed. -/
def savePending? (t : Tokenizer) : Option Tokenizer :=
  if t.keyAllowed then do
    let t ← t.dropPending?
    let required := !t.inFlow && t.block == some t.cursor.column
    return { t with pending := some ⟨required, t.tokens.length, t.cursor⟩ }
  else some t

def dropStale? (t : Tokenizer) : Option Tokenizer :=
  if t.pending.any (·.isStale t.cursor) then t.dropPending? else some t

/-! ## Block mappings -/

/-- Opens a block mapping at a column unless it is open; its token goes behind the first `place` ones.
A mapping inside the open one is refused. -/
def openBlock? (column place : Nat) (t : Tokenizer) : Option Tokenizer :=
  if t.inFlow then some t
  else
    match t.block with
    | none => some { t.insert place .blockStart with block := some column }
    | some held => if held < column then none else some t

/-- Closes the block mapping if what follows stands before its column. -/
def closeBlockBefore (column : Nat) (t : Tokenizer) : Tokenizer :=
  if !t.inFlow && t.block.any (column < ·) then { t.emit .blockEnd with block := none } else t

def closeBlock (t : Tokenizer) : Tokenizer :=
  if !t.inFlow && t.block.isSome then { t.emit .blockEnd with block := none } else t

/-! ## Between tokens -/

/-- Tabs may stand before a token where no block key can start. -/
def isSpacing (t : Tokenizer) (c : Char) : Bool :=
  c == ' ' || (c == '\t' && (t.inFlow || !t.keyAllowed))

/-- Skips spaces, comments and line breaks. In block style a key may start on a new line. -/
def skipSpacing : Nat → Tokenizer → Tokenizer
  | 0, t => t
  | n + 1, t =>
    let c := (t.cursor.skipByteOrderMark.skipWhile t.isSpacing).skipComment
    match c.lineBreak? with
    | none => { t with cursor := c }
    | some (_, c) => skipSpacing n { t with cursor := c, keyAllowed := !t.inFlow || t.keyAllowed }

/-! ## Tokens by their first character -/

def marker? (token : Token) (t : Tokenizer) : Option Tokenizer := do
  let t ← t.closeBlock.dropPending?
  return ((t.emit token).skip 3).allowKey false

def directive? (t : Tokenizer) : Option Tokenizer := do
  let t ← t.closeBlock.dropPending?
  let (d, cursor) ← Directive.read? (t.cursor.skip 1)
  return { t.emit (.directive d) with cursor, keyAllowed := false }

/-- An opening brace: only the document's own mapping may be in flow style. -/
def flowStart? (t : Tokenizer) : Option Tokenizer :=
  if t.inFlow || t.block.isSome then none
  else some { (t.emit .flowStart).skip 1 with inFlow := true, keyAllowed := true, pending := none }

def flowEnd? (t : Tokenizer) : Option Tokenizer :=
  if t.inFlow then
    some { (t.emit .flowEnd).skip 1 with inFlow := false, keyAllowed := false, pending := none }
  else none

def comma? (t : Tokenizer) : Option Tokenizer :=
  if t.inFlow then some { (t.emit .comma).skip 1 with keyAllowed := true, pending := none }
  else none

/-- The mark of an explicit key. -/
def key? (t : Tokenizer) : Option Tokenizer := do
  let t ←
    if t.inFlow then some t
    else if t.keyAllowed then t.openBlock? t.cursor.column t.tokens.length
    else none
  let t ← t.dropPending?
  return ((t.emit .key).skip 1).allowKey !t.inFlow

/-- A colon: the pending key becomes one, or the value of an explicit key follows. -/
def value? (t : Tokenizer) : Option Tokenizer := do
  let t ←
    match t.pending with
    | some k =>
      let t := { t.insert k.place .key with pending := none, keyAllowed := false }
      t.openBlock? k.start.column k.place
    | none =>
      if t.inFlow then some (t.allowKey false)
      else if t.keyAllowed then t.openBlock? t.cursor.column t.tokens.length
      else none
  return (t.emit .value).skip 1

def anchor? (token : List Char → Token) (t : Tokenizer) : Option Tokenizer := do
  let t ← t.savePending?
  let (name, cursor) ← anchorName? (t.cursor.skip 1)
  return { t.emit (token name) with cursor, keyAllowed := false }

def tag? (t : Tokenizer) : Option Tokenizer := do
  let t ← t.savePending?
  let (tag, cursor) ← Tag.read? t.inFlow t.cursor
  return { t.emit (.tag tag) with cursor, keyAllowed := false }

def block? (style : ScalarStyle) (t : Tokenizer) : Option Tokenizer := do
  let t ← t.dropPending?
  let (chars, cursor) ← blockScalar? (style == .folded) t.block (t.cursor.skip 1)
  return { t.emit (.scalar style chars) with cursor, keyAllowed := true }

def quoted? (quote : Char) (t : Tokenizer) : Option Tokenizer := do
  let t ← t.savePending?
  let c := t.cursor.skip 1
  let (chars, cursor) ← Document.quoted? quote (c.rest.length + 1) c
  return { t.emit (.scalar .quoted chars) with cursor, keyAllowed := false }

def plain? (t : Tokenizer) : Option Tokenizer := do
  let t ← t.savePending?
  let (chars, broken, cursor) ← Document.plain? t.inFlow t.indent t.cursor
  return { t.emit (.scalar .plain chars) with cursor, keyAllowed := broken }

/-- Characters that no plain scalar starts with, unless more text follows some of them. -/
def isIndicator (c : Char) : Bool := "-?:,[]\x7b\x7d#&*!|>'\"%@`".toList.contains c

/-- A plain scalar may start with the character `c` in front of the text `s`. -/
def startsPlain (inFlow : Bool) (c : Char) (s : List Char) : Bool :=
  if isIndicator c then
    (c == '-' && !s.head?.any isBlank) || ((c == '?' || c == ':') && !inFlow && !endsWord s)
  else !isGap c

/-- The token that starts with the character `c` in front of the text `s`. -/
def tokenAt? (c : Char) (s : List Char) (t : Tokenizer) : Option Tokenizer :=
  let isMark := t.inFlow || endsWord s
  if t.cursor.column = 0 && c = '%' then t.directive?
  else if t.cursor.atDocumentStart then t.marker? .documentStart
  else if t.cursor.atDocumentEnd then t.marker? .documentEnd
  else if c = '[' || c = ']' then none
  else if c = '\x7b' then t.flowStart?
  else if c = '\x7d' then t.flowEnd?
  else if c = ',' then t.comma?
  else if c = '-' && endsWord s then none
  else if c = '?' && isMark then t.key?
  else if c = ':' && isMark then t.value?
  else if c = '&' then t.anchor? .anchor
  else if c = '*' then t.anchor? .alias
  else if c = '!' then t.tag?
  else if c = '|' && !t.inFlow then t.block? .literal
  else if c = '>' && !t.inFlow then t.block? .folded
  else if c = '\'' || c = '"' then t.quoted? c
  else if startsPlain t.inFlow c s then t.plain?
  else none

/-- Reads tokens up to the end of the text. -/
def run? : Nat → Tokenizer → Option (List Token)
  | 0, _ => none
  | n + 1, t => do
    let t ← (skipSpacing (t.cursor.rest.length + 1) t).dropStale?
    let t := t.closeBlockBefore t.cursor.column
    match t.cursor.rest with
    | [] => (t.closeBlock.dropPending?).map (·.tokens.reverse)
    | c :: s => run? n (← t.tokenAt? c s)

end Tokenizer

/-- The tokens of a text. -/
def tokens? (text : List Char) : Option (List Token) :=
  Tokenizer.run? (text.length + 1) { cursor := .ofText text }

end Document
end Config
end Introspect
