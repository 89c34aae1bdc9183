import Introspect.Classes.Class
import Introspect.Text.Record

/-!
Descriptions of types and classes, showing their whole structure.
-/

namespace Introspect

open Text

def ClassId.describe (id : ClassId) : String := application "ClassId" [id.name]

namespace TypeExpr

mutual

def describe : TypeExpr → String
  | .named id => application "Class" [id.describe]
  | .apply raw args =>
    Text.record "Parameterized" [("raw", raw.describe), ("args", Text.sequence (describeList args))]
  | .wildcard lower upper =>
    Text.record "Wildcard"
      [("lower", Text.sequence (describeList lower)), ("upper", Text.sequence (describeList upper))]
  | .var owner name =>
    application "Variable"
      [Text.record "TypeVariable" [("owner", owner.describe), ("name", quoted name)]]
  | .array component => application "GenericArray" [component.describe]

def describeList : List TypeExpr → List String
  | [] => []
  | ty :: tys => ty.describe :: describeList tys

end

end TypeExpr

def ClassKind.describe : ClassKind → String
  | .primitive kind nullable =>
    Text.record "Primitive" [("kind", kind.label), ("nullable", boolean nullable)]
  | .enumeration constants => Text.record "Enum" [("constants", Text.sequence (constants.map quoted))]
  | .record => "Record"
  | .interface => "Interface"
  | .plain => "Plain"
  | .array component => Text.record "Array" [("component", component.describe)]

def TypeParam.describe (p : TypeParam) : String :=
  Text.record "TypeParam"
    [("name", quoted p.name), ("bounds", Text.sequence (p.bounds.map TypeExpr.describe))]

/-- A body is shown only by its presence. -/
def describeBody {α : Type} (body : Option α) : String :=
  Text.optional (body.map fun _ => quoted "<fn>")

def Method.describe (m : Method) : String :=
  Text.record "Method"
    [("name", quoted m.name), ("params", Text.sequence (m.params.map TypeExpr.describe)),
     ("returns", Text.optional (m.returns.map TypeExpr.describe)),
     ("modifiers", m.modifiers.describe), ("body", describeBody m.body)]

def Field.describe (f : Field) : String :=
  Text.record "Field"
    [("name", quoted f.name), ("ty", f.type.describe), ("modifiers", f.modifiers.describe),
     ("managed", boolean f.managed)]

def Constructor.describe (k : Constructor) : String :=
  Text.record "Constructor"
    [("params", Text.sequence (k.params.map fun p => application "" [quoted p.1, p.2.describe])),
     ("modifiers", k.modifiers.describe), ("body", describeBody k.body)]

def Class.describe (c : Class) : String :=
  Text.record "Class"
    [("id", c.id.describe), ("kind", c.kind.describe), ("modifiers", c.modifiers.describe),
     ("type_params", Text.sequence (c.typeParams.map TypeParam.describe)),
     ("superclass", Text.optional (c.superclass.map TypeExpr.describe)),
     ("interfaces", Text.sequence (c.interfaces.map TypeExpr.describe)),
     ("methods", Text.sequence (c.methods.map Method.describe)),
     ("fields", Text.sequence (c.fields.map Field.describe)),
     ("constructors", Text.sequence (c.constructors.map Constructor.describe)),
     ("synthetic", boolean c.synthetic), ("proxy", boolean c.proxy),
     ("open", boolean c.accessible)]

end Introspect
