import Introspect.Decimal.Layout
import Introspect.Describe.Types
import Introspect.Values.Heap

/-!
Descriptions of values and of what they refer to.
-/

namespace Introspect

open Text

namespace Heap

def sharedCell (content : String) : String := Text.record "RwLock" [("data", content)]

/-- Description of a value, with as many nested references as `depth` allows; what lies deeper is left
out. -/
def describeAt (h : Heap) : Nat → Value → String
  | _, .null => "Null"
  | _, .bool b => application "Bool" [boolean b]
  | _, .int8 n => application "I8" [signedDecimal n.toInt]
  | _, .int16 n => application "I16" [signedDecimal n.toInt]
  | _, .int32 n => application "I32" [signedDecimal n.toInt]
  | _, .int64 n => application "I64" [signedDecimal n.toInt]
  | _, .float32 bits => application "F32" [Decimal.exact.text Decimal.single bits.toNat]
  | _, .float64 bits => application "F64" [Decimal.exact.text Decimal.double bits.toNat]
  | _, .char c => application "Char" [quotedChar c]
  | _, .text s => application "String" [quoted s]
  | _, .enumConstant cls name =>
    Text.record "Enum" [("class", cls.describe), ("constant", quoted name)]
  | 0, _ => ""
  | n + 1, .object ref =>
    let slots := (h.slots ref).entries.map fun e => (quoted e.1, h.describeAt n e.2)
    application "Object"
      [Text.record "Object" [("class", ref.cls.describe), ("slots", sharedCell (dictionary slots))]]
  | n + 1, .list ref => application "List" [describeItems ref ((h.items ref).map (h.describeAt n))]
  | n + 1, .array ref => application "Array" [describeItems ref ((h.items ref).map (h.describeAt n))]
  | n + 1, .map ref =>
    let entries := (h.entries ref).entries.map fun e => (h.describeAt n e.1, h.describeAt n e.2)
    application "Map"
      [Text.record "MapValue"
        [("class", ref.cls.describe), ("entries", sharedCell (dictionary entries))]]
  | n + 1, .holder index =>
    application "Variable"
      [Text.record "Variable"
        [("value", h.describeAt n (h.held index)),
         ("subscribers", decimal (h.subscriberCount index))]]
where
  describeItems (ref : Ref) (items : List String) : String :=
    Text.record "Sequence" [("class", ref.cls.describe), ("items", sharedCell (Text.sequence items))]

/-- Number of instances. A value that does not contain itself nests no deeper. -/
def instanceCount (h : Heap) : Nat :=
  h.objects.size + h.sequences.size + h.maps.size + h.holders.size

def describe (h : Heap) (v : Value) : String := h.describeAt h.instanceCount v

/-- Description of a holder itself. -/
def describeHolder (h : Heap) (index : Nat) : String :=
  Text.record "Variable"
    [("value", h.describe (h.held index)), ("subscribers", decimal (h.subscriberCount index))]

end Heap
end Introspect
