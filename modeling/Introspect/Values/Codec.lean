import Introspect.Classes.Table
import Introspect.Decimal.Layout
import Introspect.Decimal.Reader
import Introspect.Text.Blank
import Introspect.Text.Record

/-!
Text codecs of atomic types.

Primitives, their wrappers, strings and enumerations have built-in codecs; others are registered by
class. Numbers and booleans are trimmed before they are read, characters and strings are not.
-/

namespace Introspect

inductive Codec where
  | primitive (kind : PrimitiveKind) (typeName : String)
  | text
  | enumeration (cls : ClassId) (constants : List String)
  | custom (encode : Value → Except Error String) (decode : String → Except Error Value)
  deriving Inhabited

open Text Decimal

/-- Text of a primitive value. -/
def Value.primitiveText? : Value → Option String
  | .bool b => some (boolean b)
  | .int8 n => some (signedDecimal n.toInt)
  | .int16 n => some (signedDecimal n.toInt)
  | .int32 n => some (signedDecimal n.toInt)
  | .int64 n => some (signedDecimal n.toInt)
  | .float32 bits => some (plain.text single bits.toNat)
  | .float64 bits => some (plain.text double bits.toNat)
  | .char c => some (String.ofList [c])
  | _ => none

namespace PrimitiveKind

def boolOfChars? (s : List Char) : Option Bool :=
  if s = "true".toList then some true
  else if s = "false".toList then some false
  else none

/-- The value of a kind written in the text. -/
def read? (kind : PrimitiveKind) (s : List Char) : Option Value :=
  let trimmed := trimChars s
  match kind with
  | .bool => (boolOfChars? trimmed).map .bool
  | .int8 => (intInRange? (-0x80) 0x7F trimmed).map fun n => .int8 (.ofInt n)
  | .int16 => (intInRange? (-0x8000) 0x7FFF trimmed).map fun n => .int16 (.ofInt n)
  | .int32 => (intInRange? (-0x80000000) 0x7FFFFFFF trimmed).map fun n => .int32 (.ofInt n)
  | .int64 => (intInRange? (-0x8000000000000000) 0x7FFFFFFFFFFFFFFF trimmed).map fun n => .int64 (.ofInt n)
  | .float32 => (bitsOfChars? single trimmed).map fun b => .float32 (.ofNat b)
  | .float64 => (bitsOfChars? double trimmed).map fun b => .float64 (.ofNat b)
  | .char =>
    match s with
    | [c] => some (.char c)
    | _ => none

end PrimitiveKind

namespace Codec

def encode : Codec → Value → Except Error String
  | .primitive kind typeName, v =>
    if v.primitiveKind? = some kind then
      match v.primitiveText? with
      | some s => .ok s
      | none => .error (v.mismatch typeName)
    else .error (v.mismatch typeName)
  | .text, v =>
    match v with
    | .text s => .ok s
    | v => .error (v.mismatch ClassId.string.name)
  | .enumeration cls _, v =>
    match v with
    | .enumConstant c name => if c = cls then .ok name else .error (v.mismatch cls.name)
    | v => .error (v.mismatch cls.name)
  | .custom encode _, v => encode v

def decode : Codec → String → Except Error Value
  | .primitive kind typeName, s =>
    match kind.read? s.toList with
    | some v => .ok v
    | none => .error (.codec typeName s)
  | .text, s => .ok (.text s)
  | .enumeration cls constants, s =>
    if constants.contains s then .ok (.enumConstant cls s) else .error (.codec cls.name s)
  | .custom _ decode, s => decode s

/-- Writes texts behind a fixed start and reads back what stands behind it. -/
def tagged (cls : ClassId) (tag : String) : Codec :=
  .custom
    (fun v =>
      match v with
      | .text s => .ok (tag ++ s)
      | v => .error (v.mismatch cls.name))
    (fun s =>
      if tag.toList.isPrefixOf s.toList then
        .ok (.text (String.ofList (s.toList.drop tag.length)))
      else .error (.codec cls.name s))

/-- Reads any text and writes nothing. -/
def decodeOnly (cls : ClassId) : Codec :=
  .custom (fun v => .error (v.mismatch cls.name)) (fun s => .ok (.text s))

end Codec

/-- Codecs by class. -/
structure CodecTable where
  registered : Dict ClassId Codec
  deriving Inhabited

namespace CodecTable

def builtinEntries : List (ClassId × Codec) :=
  PrimitiveKind.all.flatMap (fun k =>
    [(k.primitiveId, .primitive k k.className), (k.wrapperId, .primitive k k.wrapperName)]) ++
  [(.string, .text)]

def builtin : CodecTable := ⟨⟨builtinEntries⟩⟩

/-- Registers or replaces the codec of a class. -/
def register (t : CodecTable) (id : ClassId) (codec : Codec) : CodecTable :=
  ⟨t.registered.insert id codec⟩

/-- The registered codec of a class, else the codec of its constants if it is an enumeration. -/
def find? (t : CodecTable) (c : Class) : Option Codec :=
  match t.registered.find? c.id with
  | some codec => some codec
  | none =>
    match c.kind with
    | .enumeration constants => some (.enumeration c.id constants)
    | _ => none

end CodecTable
end Introspect
