import Introspect.Values.Heap

/-!
Plain data: scalars, texts, optional data and lists, and their conversion from and to values.

`DataType.read` refuses a value of another form; a text is also read from an enumeration constant. The
null value is the absent optional. `DataType.write` puts every list into a new sequence.
-/

namespace Introspect

/-- Data of a primitive kind, floats by their bits. -/
@[reducible] def PrimitiveKind.Data : PrimitiveKind → Type
  | .bool => Bool
  | .int8 => Int8
  | .int16 => Int16
  | .int32 => Int32
  | .int64 => Int64
  | .float32 => UInt32
  | .float64 => UInt64
  | .char => Char

namespace PrimitiveKind

def read : (kind : PrimitiveKind) → Value → Except Error kind.Data
  | .bool, .bool b => .ok b
  | .int8, .int8 n => .ok n
  | .int16, .int16 n => .ok n
  | .int32, .int32 n => .ok n
  | .int64, .int64 n => .ok n
  | .float32, .float32 bits => .ok bits
  | .float64, .float64 bits => .ok bits
  | .char, .char c => .ok c
  | kind, v => .error (v.mismatch kind.className)

def write : (kind : PrimitiveKind) → kind.Data → Value
  | .bool, b => .bool b
  | .int8, n => .int8 n
  | .int16, n => .int16 n
  | .int32, n => .int32 n
  | .int64, n => .int64 n
  | .float32, bits => .float32 bits
  | .float64, bits => .float64 bits
  | .char, c => .char c

end PrimitiveKind

inductive DataType where
  | scalar (kind : PrimitiveKind)
  | text
  | optional (inner : DataType)
  | list (item : DataType)
  deriving DecidableEq, Repr, Inhabited

namespace DataType

/-- A type written as words: `optional` and `list` stand before the type they apply to. -/
def ofWords? : List String → Option DataType
  | "optional" :: rest => (ofWords? rest).map .optional
  | "list" :: rest => (ofWords? rest).map .list
  | [word] =>
    if word = "text" then some .text
    else (PrimitiveKind.ofClassName? word).map .scalar
  | _ => none

@[reducible] def Data : DataType → Type
  | .scalar kind => kind.Data
  | .text => String
  | .optional inner => Option inner.Data
  | .list item => List item.Data

def readText : Value → Except Error String
  | .text s => .ok s
  | .enumConstant _ constant => .ok constant
  | v => .error (v.mismatch ClassId.string.name)

/-- The data in a value, with sequences read from the heap. -/
def read (h : Heap) : (ty : DataType) → Value → Except Error ty.Data
  | .scalar kind, v => kind.read v
  | .text, v => readText v
  | .optional inner, v => if v.isNull then .ok none else (read h inner v).map some
  | .list item, v => do
    let ref ← v.asSequence
    (h.items ref).mapM (read h item)

/-- Writes items in order. -/
def writeAll {α : Type} (write : α → Heap → Value × Heap) : List α → Heap → List Value × Heap
  | [], h => ([], h)
  | a :: as, h =>
    let (v, h) := write a h
    let (vs, h) := writeAll write as h
    (v :: vs, h)

/-- The value of data; every list becomes a new sequence. -/
def write : (ty : DataType) → ty.Data → Heap → Value × Heap
  | .scalar kind, x, h => (kind.write x, h)
  | .text, x, h => (.text x, h)
  | .optional inner, x, h =>
    match x with
    | none => (.null, h)
    | some y => write inner y h
  | .list item, xs, h =>
    let (vs, h) := writeAll (write item) xs h
    h.allocList .arrayList vs

/-- Reads data from a value and writes it back. -/
def roundTrip (ty : DataType) (v : Value) : HeapM Value := do
  let x ← ofExcept (ty.read (← get) v)
  modifyGet fun h => ty.write x h

end DataType
end Introspect
