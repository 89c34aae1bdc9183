import Introspect.Config.Document.Anchors

/-!
Configuration documents.

A document maps setting names to scalars, in block or in flow style. An empty document gives the
defaults.
-/

namespace Introspect
namespace Config
namespace Document

/-- The entry of a mapping as a setting. Its name may be written in any style and with any tag. -/
def setting? (entry : Scalar × Scalar) : Option (Key × Scalar) :=
  (Key.ofChars? entry.1.chars).map fun k => (k, entry.2)

def Content.settings? : Content (List Char) → Option (List (Key × Scalar))
  | .scalar s => if s.style = .plain && s.chars.isEmpty then some [] else none
  | .mapping anchor entries => (Entries.scalars? anchor entries).bind (·.mapM setting?)

/-- The settings of a text. -/
def settings? (text : List Char) : Option (List (Key × Scalar)) := do
  if text.all isAllowed then
    let content ← Content.ofTokens? (← tokens? text)
    content.settings?
  else none

end Document

/-- Reads a configuration document. -/
def ofDocument (text : String) : Except Error Config :=
  match (Document.settings? text.toList).bind ofSettings? with
  | some c => .ok c
  | none => .error (.config .document)

/-- Reads the configuration from a file's content; none when the file is missing. -/
def ofFile (content : Option String) : Except Error Config :=
  match content with
  | some text => ofDocument text
  | none => .error (.config .missingFile)

end Config
end Introspect
