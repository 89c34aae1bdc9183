import Introspect.Text.Printable
import Introspect.Text.Numeral

/-!
Quoted text and characters.

The quote itself and the backslash stand behind a backslash, five control characters have a letter,
and every other character that is not printable is written by its code point.
-/

namespace Introspect.Text

def codePointEscape (c : Char) : List Char :=
  ['\\', 'u', '\x7b'] ++ hexChars c.toNat ++ ['\x7d']

/-- The written form of `c` between two `quote` characters. -/
def escapeChar (quote c : Char) : List Char :=
  if c = '\x00' then ['\\', '0']
  else if c = '\t' then ['\\', 't']
  else if c = '\r' then ['\\', 'r']
  else if c = '\n' then ['\\', 'n']
  else if c = '\\' then ['\\', '\\']
  else if c = quote then ['\\', quote]
  else if isPrintable c then [c]
  else codePointEscape c

def quoteChars (quote : Char) (s : List Char) : List Char :=
  quote :: (s.flatMap (escapeChar quote) ++ [quote])

/-- Text in double quotes. -/
def quoted (s : String) : String := String.ofList (quoteChars '"' s.toList)

/-- A character in single quotes. -/
def quotedChar (c : Char) : String := String.ofList (quoteChars '\'' [c])

end Introspect.Text
