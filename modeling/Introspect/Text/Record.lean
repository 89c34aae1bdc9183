/-!
Bracketed text of structured values: named records, applications, sequences and dictionaries.
-/

namespace Introspect.Text

def commaSeparated (items : List String) : String := ", ".intercalate items

/-- `Name \x7b field: value, … \x7d`. -/
def record (name : String) (fields : List (String × String)) : String :=
  name ++ " \x7b " ++ commaSeparated (fields.map fun f => f.1 ++ ": " ++ f.2) ++ " \x7d"

/-- `Name(item, …)`; the name may be empty. -/
def application (name : String) (items : List String) : String :=
  name ++ "(" ++ commaSeparated items ++ ")"

def sequence (items : List String) : String := "[" ++ commaSeparated items ++ "]"

def dictionary (entries : List (String × String)) : String :=
  "\x7b" ++ commaSeparated (entries.map fun e => e.1 ++ ": " ++ e.2) ++ "\x7d"

/-- `Some(item)` or `None`. -/
def optional : Option String → String
  | some item => application "Some" [item]
  | none => "None"

def boolean (b : Bool) : String := if b then "true" else "false"

end Introspect.Text
