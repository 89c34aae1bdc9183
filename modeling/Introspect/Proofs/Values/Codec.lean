import Introspect.Proofs.Dict
import Introspect.Proofs.Text.Numeral
import Introspect.Values.Codec

/-!
Codecs whose texts stand for one value each.

The built-in codecs of booleans, integers, characters, strings and enumerations read back what they
write. Several texts may be read as one value, but only one of them is the one that is written for it.

* `Codec.IsExact`: those codecs.
* `Codec.decode_of_encode`: the text of a value is read as the value.
* `Codec.encode_of_decode`: a value that was read has a text, and that text is read as the value.
* `Codec.encode_injective`: no two values have one text.
* `builtin_codec_round_trip`: so it is for every class with a built-in codec, those of floats apart.
-/

namespace Introspect

open Text

/-! ## Primitives -/

namespace PrimitiveKind

theorem kind_of_read {kind : PrimitiveKind} {s : List Char} {v : Value}
    (h : kind.read? s = some v) : v.primitiveKind? = some kind := by
  cases kind with
  | char =>
    unfold read? at h
    simp only at h
    split at h
    · cases h
      rfl
    · cases h
  | _ =>
    obtain ⟨n, -, rfl⟩ := Option.map_eq_some_iff.1 h
    rfl

theorem text_of_kind {kind : PrimitiveKind} {v : Value} (h : v.primitiveKind? = some kind) :
    ∃ t, v.primitiveText? = some t := by
  cases v with
  | null | text _ | enumConstant _ _ | object _ | list _ | array _ | map _ | holder _ => cases h
  | _ => exact ⟨_, rfl⟩

/-- The text of a value is read as the value: trimming takes nothing from it, and no width is left. -/
theorem read_of_text {kind : PrimitiveKind} (hfloat : kind ≠ .float32 ∧ kind ≠ .float64)
    {v : Value} {t : String} (hkind : v.primitiveKind? = some kind)
    (htext : v.primitiveText? = some t) : kind.read? t.toList = some v := by
  cases v with
  | bool b =>
    cases hkind
    cases htext
    cases b <;> decide
  | int8 n =>
    cases hkind
    cases htext
    have hb : -0x80 ≤ n.toInt ∧ n.toInt ≤ 0x7F := ⟨n.le_toInt, n.toInt_le⟩
    simp only [read?, trimChars_signedDecimal, intInRange?_signedDecimal hb, Option.map_some,
      Int8.ofInt_toInt]
  | int16 n =>
    cases hkind
    cases htext
    have hb : -0x8000 ≤ n.toInt ∧ n.toInt ≤ 0x7FFF := ⟨n.le_toInt, n.toInt_le⟩
    simp only [read?, trimChars_signedDecimal, intInRange?_signedDecimal hb, Option.map_some,
      Int16.ofInt_toInt]
  | int32 n =>
    cases hkind
    cases htext
    have hb : -0x80000000 ≤ n.toInt ∧ n.toInt ≤ 0x7FFFFFFF := ⟨n.le_toInt, n.toInt_le⟩
    simp only [read?, trimChars_signedDecimal, intInRange?_signedDecimal hb, Option.map_some,
      Int32.ofInt_toInt]
  | int64 n =>
    cases hkind
    cases htext
    have hb : -0x8000000000000000 ≤ n.toInt ∧ n.toInt ≤ 0x7FFFFFFFFFFFFFFF :=
      ⟨n.le_toInt, n.toInt_le⟩
    simp only [read?, trimChars_signedDecimal, intInRange?_signedDecimal hb, Option.map_some,
      Int64.ofInt_toInt]
  | float32 bits =>
    cases hkind
    exact absurd rfl hfloat.1
  | float64 bits =>
    cases hkind
    exact absurd rfl hfloat.2
  | char c =>
    cases hkind
    cases htext
    simp only [read?, String.toList_ofList]
  | _ => cases hkind

end PrimitiveKind

/-! ## Codecs -/

namespace Codec

/-- The built-in codecs but those of floats. -/
def IsExact : Codec → Prop
  | .primitive kind _ => kind ≠ .float32 ∧ kind ≠ .float64
  | .text | .enumeration _ _ => True
  | .custom _ _ => False

instance : DecidablePred IsExact
  | .primitive kind _ => inferInstanceAs (Decidable (kind ≠ .float32 ∧ kind ≠ .float64))
  | .text | .enumeration _ _ => isTrue trivial
  | .custom _ _ => isFalse id

theorem encode_primitive_iff {kind : PrimitiveKind} {typeName t : String} {v : Value} :
    (primitive kind typeName).encode v = .ok t ↔
      v.primitiveKind? = some kind ∧ v.primitiveText? = some t := by
  simp only [encode]
  split
  · next hkind =>
    obtain ⟨u, hu⟩ := PrimitiveKind.text_of_kind hkind
    simp only [hu, hkind, Except.ok.injEq, Option.some.injEq, true_and]
  · next hkind => simp only [hkind, reduceCtorEq, false_and]

theorem encode_text_iff {t : String} {v : Value} : text.encode v = .ok t ↔ v = .text t := by
  cases v <;> simp [encode]

theorem encode_enumeration_iff {cls : ClassId} {constants : List String} {t : String} {v : Value} :
    (enumeration cls constants).encode v = .ok t ↔ v = .enumConstant cls t := by
  cases v with
  | enumConstant c name =>
    by_cases hc : c = cls
    · simp [encode, hc]
    · simp [encode, hc]
  | _ => simp [encode]

/-- A constant of an enumeration is one of those it declares; other values need no declaration. -/
def Declares : Codec → Value → Prop
  | .enumeration _ constants, .enumConstant _ name => name ∈ constants
  | _, _ => True

/-- The text of a value is read as the value. -/
theorem decode_of_encode {codec : Codec} (hexact : codec.IsExact) {v : Value} {t : String}
    (hv : codec.Declares v) (h : codec.encode v = .ok t) : codec.decode t = .ok v := by
  cases codec with
  | primitive kind typeName =>
    obtain ⟨hkind, htext⟩ := encode_primitive_iff.1 h
    simp only [decode, PrimitiveKind.read_of_text hexact hkind htext]
  | text =>
    cases encode_text_iff.1 h
    rfl
  | enumeration cls constants =>
    cases encode_enumeration_iff.1 h
    have hmem : constants.contains t = true := List.contains_iff_mem.2 hv
    simp only [decode, hmem, if_true]
  | custom _ _ => cases hexact

/-- A value that was read has a text and is declared. -/
theorem encodes_of_decode {codec : Codec} (hexact : codec.IsExact) {s : String} {v : Value}
    (h : codec.decode s = .ok v) : codec.Declares v ∧ ∃ t, codec.encode v = .ok t := by
  cases codec with
  | primitive kind typeName =>
    simp only [decode] at h
    split at h
    · next u hread =>
      cases h
      have hkind := PrimitiveKind.kind_of_read hread
      obtain ⟨t, htext⟩ := PrimitiveKind.text_of_kind hkind
      exact ⟨trivial, t, encode_primitive_iff.2 ⟨hkind, htext⟩⟩
    · cases h
  | text =>
    cases h
    exact ⟨trivial, s, rfl⟩
  | enumeration cls constants =>
    simp only [decode] at h
    split at h
    · next hmem =>
      cases h
      exact ⟨List.contains_iff_mem.1 hmem, s, encode_enumeration_iff.2 rfl⟩
    · cases h
  | custom _ _ => cases hexact

/-- A value that was read has a text, and that text is read as the value. -/
theorem encode_of_decode {codec : Codec} (hexact : codec.IsExact) {s : String} {v : Value}
    (h : codec.decode s = .ok v) : ∃ t, codec.encode v = .ok t ∧ codec.decode t = .ok v := by
  obtain ⟨hdeclared, t, ht⟩ := encodes_of_decode hexact h
  exact ⟨t, ht, decode_of_encode hexact hdeclared ht⟩

/-- Values with the same text are the same. -/
theorem encode_injective {codec : Codec} (hexact : codec.IsExact) {t : String} {v w : Value}
    (hv : codec.encode v = .ok t) (hw : codec.encode w = .ok t) : v = w := by
  cases codec with
  | primitive kind typeName =>
    have hread := decode_of_encode hexact trivial hv
    have hread' := decode_of_encode hexact trivial hw
    exact Except.ok.inj (hread.symm.trans hread')
  | text => exact (encode_text_iff.1 hv).trans (encode_text_iff.1 hw).symm
  | enumeration cls constants =>
    exact (encode_enumeration_iff.1 hv).trans (encode_enumeration_iff.1 hw).symm
  | custom _ _ => cases hexact

end Codec

/-! ## Built-in codecs -/

namespace CodecTable

/-- Classes of the primitive kinds that hold floats, and their wrappers. -/
def floatIds : List ClassId :=
  [PrimitiveKind.float32, .float64].flatMap fun kind => [kind.primitiveId, kind.wrapperId]

theorem isExact_of_entry : ∀ e ∈ builtinEntries, e.1 ∉ floatIds → e.2.IsExact := by decide

/-- Classes but those of floats have exact built-in codecs. -/
theorem isExact_of_builtin {c : Class} {codec : Codec} (hc : builtin.find? c = some codec)
    (hfloat : c.id ∉ floatIds) : codec.IsExact := by
  unfold find? at hc
  split at hc
  · next entry hentry =>
    cases hc
    exact isExact_of_entry _ (Dict.mem_of_find? hentry) hfloat
  · split at hc
    · cases hc
      exact trivial
    · cases hc

end CodecTable

/-- A built-in codec reads the text of a declared value as that value, writes every value it reads,
and gives no two values the same text; only those of floats are left out. -/
theorem builtin_codec_round_trip {c : Class} {codec : Codec}
    (hc : CodecTable.builtin.find? c = some codec) (hfloat : c.id ∉ CodecTable.floatIds) :
    (∀ v t, codec.encode v = .ok t → codec.Declares v → codec.decode t = .ok v) ∧
    (∀ t v, codec.decode t = .ok v → ∃ u, codec.encode v = .ok u ∧ codec.decode u = .ok v) ∧
    (∀ v w t, codec.encode v = .ok t → codec.encode w = .ok t → v = w) := by
  have hexact := CodecTable.isExact_of_builtin hc hfloat
  refine ⟨fun v t ht hv => ?_, fun t v hv => ?_, fun v w t hv hw => ?_⟩
  · exact Codec.decode_of_encode hexact hv ht
  · exact Codec.encode_of_decode hexact hv
  · exact Codec.encode_injective hexact hv hw

/-- A blank is a character like any other: it is written as it is, and it is not trimmed away. -/
theorem builtin_codec_round_trip_blank :
    let char := Class.bare PrimitiveKind.char.primitiveId .plain
    CodecTable.builtin.find? char = some (.primitive .char "char") ∧
      char.id ∉ CodecTable.floatIds ∧
      (Codec.primitive .char "char").encode (.char ' ') = .ok " " ∧
      (Codec.primitive .char "char").decode " " = .ok (.char ' ') := by
  intro char
  have hc : CodecTable.builtin.find? char = some (.primitive .char "char") := rfl
  have hfloat : char.id ∉ CodecTable.floatIds := by decide
  have ht : (Codec.primitive .char "char").encode (.char ' ') = .ok " " := rfl
  exact ⟨hc, hfloat, ht, (builtin_codec_round_trip hc hfloat).1 _ _ ht trivial⟩

end Introspect
