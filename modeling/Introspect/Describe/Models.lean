import Introspect.Describe.Types
import Introspect.Models.Registry

/-!
Descriptions of models, properties, class tables and registries.
-/

namespace Introspect

open Text

def Registry.describeModel (r : Registry) (m : Model) : String :=
  Text.record "Model"
    [("ty", m.type.describe), ("kind", m.kind.label), ("atomic", boolean m.isAtomic),
     ("initialized", boolean (r.isInitialized m))]

def Property.describe (p : Property) : String :=
  Text.record "Property"
    [("name", quoted p.name), ("model", p.model.type.describe),
     ("transient", boolean p.isTransient), ("observable", boolean p.isObservable)]

def ClassTable.describe (t : ClassTable) : String :=
  Text.record "ClassTable" [("classes", decimal t.size)]

def Registry.describe (r : Registry) : String :=
  Text.record "ModelRegistry"
    [("classes", decimal r.classes.size), ("models", decimal r.size)]

end Introspect
