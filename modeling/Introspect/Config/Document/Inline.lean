import Introspect.Config.Scalar
import Introspect.Config.Document.Cursor

/-!
Plain and quoted scalars.

Both may run over several lines. A gap with line breaks in it is folded: a single break counts as a space,
and of several breaks the first one is dropped.
-/

namespace Introspect
namespace Config
namespace Document

/-! ## Gaps -/

/-- What the line breaks of a gap count as. -/
def foldBreaks : List Char → List Char
  | ['\n'] => [' ']
  | '\n' :: more => more
  | breaks => breaks

/-- Line breaks with the blanks behind each. A tab before the column `indent` is refused. -/
def breaks? (indent : Nat) : Nat → Cursor → Option (List Char × Cursor)
  | 0, c => some ([], c)
  | n + 1, c =>
    match c.lineBreak? with
    | none => some ([], c)
    | some (b, c) =>
      let (blanks, c) := c.span isBlank
      if (blanks.take indent).contains '\t' then none
      else (breaks? indent n c).map fun (more, c) => (b :: more, c)

/-- A gap between the words of a scalar. -/
structure Gap where
  blanks : List Char
  breaks : List Char

namespace Gap

/-- The gap at the cursor, which may be empty, and the cursor behind it. -/
def read? (indent : Nat) (c : Cursor) : Option (Gap × Cursor) :=
  let (blanks, c) := c.span isBlank
  (breaks? indent c.rest.length c).map fun (breaks, c) => (⟨blanks, breaks⟩, c)

def isEmpty (g : Gap) : Bool := g.blanks.isEmpty && g.breaks.isEmpty

/-- What the gap counts as between two words. -/
def text (g : Gap) : List Char := if g.breaks.isEmpty then g.blanks else foldBreaks g.breaks

end Gap

/-! ## Plain scalars -/

def isFlowMark (c : Char) : Bool :=
  c == ',' || c == '[' || c == ']' || c == '\x7b' || c == '\x7d'

/-- The word of a plain scalar at the start of the text. It ends at a gap, at a colon in front of a gap
and in flow style at a flow mark. A colon right before a flow mark is refused in flow style. -/
def plainWord? (inFlow : Bool) : List Char → Option (List Char)
  | [] => some []
  | c :: s =>
    if isGap c then some []
    else if c == ':' && inFlow && s.head?.any (fun d => isFlowMark d || d == '?') then none
    else if c == ':' && endsWord s then some []
    else if inFlow && isFlowMark c then some []
    else (plainWord? inFlow s).map (c :: ·)

/-- What follows the first word of a plain scalar: its further characters, whether line breaks stand
behind them, and the cursor. In block style its lines start at the column `indent` or behind it. -/
def plainRest? (inFlow : Bool) (indent : Nat) : Nat → Cursor → Option (List Char × Bool × Cursor)
  | 0, c => some ([], false, c)
  | n + 1, c => do
    let (gap, c) ← Gap.read? indent c
    let broken := !gap.breaks.isEmpty
    if gap.isEmpty || (!inFlow && c.column < indent) || c.atMarker || c.head? == some '#' then
      return ([], broken, c)
    else
      let word ← plainWord? inFlow c.rest
      if word.isEmpty then return ([], broken, c)
      else
        let (more, broken, c) ← plainRest? inFlow indent n (c.skip word.length)
        return (gap.text ++ word ++ more, broken, c)

/-- A plain scalar, whether line breaks stand behind it, and the cursor behind those. -/
def plain? (inFlow : Bool) (indent : Nat) (c : Cursor) : Option (List Char × Bool × Cursor) := do
  let word ← plainWord? inFlow c.rest
  let (more, broken, c) ← plainRest? inFlow indent c.rest.length (c.skip word.length)
  return (word ++ more, broken, c)

/-! ## Quoted scalars -/

/-- Escapes of one character. -/
def simpleEscapes : List (Char × Nat) :=
  [('0', 0x00), ('a', 0x07), ('b', 0x08), ('t', 0x09), ('\t', 0x09), ('n', 0x0A), ('v', 0x0B),
   ('f', 0x0C), ('r', 0x0D), ('e', 0x1B), (' ', 0x20), ('"', 0x22), ('/', 0x2F), ('\\', 0x5C),
   ('N', 0x85), ('_', 0xA0), ('L', 0x2028), ('P', 0x2029)]

/-- How many digits follow an escape by code point. -/
def escapeWidth? (c : Char) : Option Nat :=
  if c = 'x' then some 2 else if c = 'u' then some 4 else if c = 'U' then some 8 else none

/-- The value of as many hexadecimal digits at the start of the text. -/
def hexAt? (count : Nat) (s : List Char) : Option Nat :=
  let digits := s.take count
  if digits.length = count then natInBase? 16 digits else none

/-- The character of an escape and the cursor behind it; the backslash is read already. -/
def escape? (c : Cursor) : Option (Char × Cursor) := do
  let e ← c.head?
  match escapeWidth? e with
  | some width =>
    let n ← hexAt? width (c.rest.drop 1)
    if n.isValidChar then return (Char.ofNat n, c.skip (width + 1)) else none
  | none =>
    let n ← simpleEscapes.lookup e
    return (Char.ofNat n, c.skip 1)

/-- The line break behind a backslash and all that follow it. The first one counts as nothing. -/
def escapedBreaks? (c : Cursor) : Option (List Char × Cursor) :=
  match c.lineBreak? with
  | none => none
  | some (_, c) =>
    let c := c.skipWhile isBlank
    breaks? 0 c.rest.length c

/-- The text up to the closing quote, and the cursor behind it. Between single quotes a quote is written
twice. A document marker inside is refused. -/
def quoted? (quote : Char) : Nat → Cursor → Option (List Char × Cursor)
  | 0, _ => none
  | n + 1, c =>
    if c.atMarker then none
    else
      let after (text : List Char) (c : Cursor) : Option (List Char × Cursor) :=
        (quoted? quote n c).map fun (more, c) => (text ++ more, c)
      match c.rest with
      | [] => none
      | ch :: s =>
        if ch == quote then
          if quote == '\'' && s.head? == some '\'' then after [ch] (c.skip 2)
          else some ([], c.skip 1)
        else if isGap ch then
          (Gap.read? 0 c).bind fun (gap, c) => after gap.text c
        else if ch == '\\' && quote == '"' then
          match escapedBreaks? (c.skip 1) with
          | some (breaks, c) => after breaks c
          | none => (escape? (c.skip 1)).bind fun (e, c) => after [e] c
        else after [ch] (c.skip 1)

end Document
end Config
end Introspect
