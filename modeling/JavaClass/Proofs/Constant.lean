import JavaClass.Constant.Format
import JavaClass.Proofs.Reading
import JavaClass.Proofs.Text.ModifiedUtf8

/-!
# Constants as bytes

Reading a constant is the inverse of writing it. There is one exception: a string of units that is
text has the same bytes as the text and is read as such, so it is never read itself.

- `Constant.Canonical`: the constants that can be read.
- `Constant.inverts_read`: a reader of constants inverts the writer.
-/

namespace JavaClass

/-- Every kind of method handle is read from its number. -/
theorem ReferenceKind.inverts_read :
    ReferenceKind.read.Inverts (fun _ => True) fun kind => .ok (Bytes.ofU1 kind.toByte) := by
  refine Reader.inverts_ok fun input reports kind rest => ?_
  simp only [ReferenceKind.read, Reader.reads_bind, Reader.reads_u1]
  constructor
  · rintro ⟨_, byte, _, after, ⟨rfl, rfl⟩, h, rfl⟩
    split at h
    · next found hfound =>
      obtain ⟨rfl, rfl, rfl⟩ := Reader.reads_pure.mp h
      -- The kind that is found is one with this number.
      have hbyte : kind.toByte = byte := by simpa using List.find?_some hfound
      exact ⟨rfl, trivial, by rw [hbyte]⟩
    · simp at h
  · rintro ⟨rfl, -, rfl⟩
    refine ⟨[], kind.toByte, rest, [], ⟨rfl, rfl⟩, ?_, rfl⟩
    simp

namespace Constant

/-- A constant that can be read: a string of units that is text is read as text. -/
def Canonical : Constant → Prop
  | utf16 units => Utf16.toText? units = none
  | _ => True

instance : DecidablePred Canonical := fun constant => by
  cases constant <;> unfold Canonical <;> infer_instance

/-- The constant for units is text exactly if they spell it. -/
theorem ofUnits_eq_iff {units : List UInt16} {constant : Constant} :
    ofUnits units = constant ↔
      (∃ text, constant = .utf8 text ∧ units = Utf16.ofText text) ∨
        constant = .utf16 units ∧ Utf16.toText? units = none := by
  unfold ofUnits
  split
  · next text htext =>
    have hunits := Utf16.toText?_eq_some_iff.mp htext
    constructor
    · rintro rfl
      exact .inl ⟨text, rfl, hunits⟩
    · rintro (⟨other, rfl, hother⟩ | ⟨-, hnone⟩)
      · have := htext.symm.trans (Utf16.toText?_eq_some_iff.mpr hother)
        rw [Option.some.inj this]
      · rw [htext] at hnone
        cases hnone
  · next hnone =>
    constructor
    · rintro rfl
      exact .inr ⟨rfl, hnone⟩
    · rintro (⟨text, rfl, hunits⟩ | ⟨rfl, -⟩)
      · rw [Utf16.toText?_eq_some_iff.mpr hunits] at hnone
        cases hnone
      · rfl

/-- A string is written behind a count of its bytes, if two bytes can say how many there are. -/
theorem writeString_eq_ok {encoded bytes : Bytes} :
    writeString encoded = .ok bytes ↔
      ∃ count, count.toNat = encoded.length ∧ bytes = Bytes.ofU2 count ++ encoded := by
  simp only [writeString, bind_eq_ok, count16_eq_ok, pure_eq_ok, eq_comm (a := _ ++ encoded)]

section Fields

variable {input : Bytes} {reports : List Diagnostic} {constant : Constant} {rest : Bytes}

/-- A string is read from the count and the encoding of its units. -/
theorem reads_string :
    (readFields 1).Reads input reports constant rest ↔
      reports = [] ∧ ∃ units count, ofUnits units = constant ∧
        count.toNat = (ModifiedUtf8.encode units).length ∧
        input = Bytes.ofU2 count ++ ModifiedUtf8.encode units ++ rest := by
  simp only [readFields, Reader.reads_bind, Reader.reads_u2, Reader.reads_bytes,
    Reader.reads_ofExcept, Reader.reads_pure, unitsOfBytes]
  constructor
  · rintro ⟨_, count, _, _, ⟨rfl, rfl⟩, ⟨_, bytes, _, _, ⟨rfl, hlen, rfl⟩,
      ⟨_, units, _, _, ⟨rfl, hunits, rfl⟩, ⟨rfl, rfl, rfl⟩, rfl⟩, rfl⟩, rfl⟩
    -- Bytes that decode to units are the encoding of these, so their count is that of the encoding.
    cases hdecode : ModifiedUtf8.decode bytes with
    | error offset => simp [hdecode, Except.mapError] at hunits
    | ok found =>
      obtain rfl : found = units := by simpa [hdecode, Except.mapError] using hunits
      rw [ModifiedUtf8.decode_eq_ok_iff] at hdecode
      subst hdecode
      exact ⟨rfl, found, count, rfl, hlen.symm, by simp⟩
  · rintro ⟨rfl, units, count, rfl, hlen, rfl⟩
    have hdecode := ModifiedUtf8.decode_eq_ok_iff.mpr (rfl : ModifiedUtf8.encode units = _)
    exact ⟨[], count, ModifiedUtf8.encode units ++ rest, [], ⟨rfl, by simp⟩,
      ⟨[], ModifiedUtf8.encode units, rest, [], ⟨rfl, hlen.symm, rfl⟩,
        ⟨[], units, rest, [], ⟨rfl, by rw [hdecode]; rfl, rfl⟩, ⟨rfl, rfl, rfl⟩, rfl⟩, rfl⟩, rfl⟩

/-- What is read behind a tag is a canonical constant of that kind, whose fields were written. -/
theorem writeFields_of_reads_readFields {tag : UInt8}
    (h : (readFields tag).Reads input reports constant rest) :
    reports = [] ∧ constant.tag = tag ∧ constant.Canonical ∧
      ∃ bytes, constant.writeFields = .ok bytes ∧ input = bytes ++ rest := by
  unfold readFields at h
  split at h
  case h_1 =>
    obtain ⟨rfl, units, count, hunits, hcount, rfl⟩ := reads_string.mp h
    rw [ofUnits_eq_iff] at hunits
    obtain ⟨text, rfl, rfl⟩ | ⟨rfl, hnone⟩ := hunits
    · exact ⟨rfl, rfl, trivial, _, writeString_eq_ok.mpr ⟨count, hcount, rfl⟩, rfl⟩
    · exact ⟨rfl, rfl, hnone, _, writeString_eq_ok.mpr ⟨count, hcount, rfl⟩, rfl⟩
  -- The kinds of one word.
  case h_2 | h_3 | h_4 | h_5 | h_6 | h_7 | h_13 =>
    simp only [Reader.reads_map, Reader.reads_u2, Reader.reads_u4, Reader.reads_u8] at h
    obtain ⟨word, ⟨rfl, rfl⟩, rfl⟩ := h
    exact ⟨rfl, rfl, trivial, _, rfl, rfl⟩
  -- The kinds of two indices.
  case h_8 | h_9 | h_10 | h_11 | h_14 =>
    simp only [Reader.reads_map₂, Reader.reads_u2] at h
    obtain ⟨_, first, _, _, second, ⟨rfl, rfl⟩, ⟨rfl, rfl⟩, rfl, rfl⟩ := h
    exact ⟨rfl, rfl, trivial, _, rfl, by rw [List.append_assoc]⟩
  case h_12 =>
    simp only [Reader.reads_map₂, Reader.reads_u2, ReferenceKind.inverts_read _ _ _ _] at h
    obtain ⟨_, kind, _, _, member, ⟨rfl, -, _, hkind, rfl⟩, ⟨rfl, rfl⟩, rfl, rfl⟩ := h
    cases hkind
    exact ⟨rfl, rfl, trivial, _, rfl, by rw [List.append_assoc]⟩
  case h_15 => simp at h

/-- The fields that are written for a canonical constant are read back behind its tag. -/
theorem reads_readFields_of_writeFields {bytes : Bytes} (hcanonical : constant.Canonical)
    (hbytes : constant.writeFields = .ok bytes) (rest : Bytes) :
    (readFields constant.tag).Reads (bytes ++ rest) [] constant rest := by
  cases constant with
  | utf8 text =>
    obtain ⟨count, hcount, rfl⟩ := writeString_eq_ok.mp hbytes
    exact reads_string.mpr ⟨rfl, _, count, ofUnits_eq_iff.mpr (.inl ⟨text, rfl, rfl⟩), hcount, rfl⟩
  | utf16 units =>
    obtain ⟨count, hcount, rfl⟩ := writeString_eq_ok.mp hbytes
    exact reads_string.mpr
      ⟨rfl, units, count, ofUnits_eq_iff.mpr (.inr ⟨rfl, hcanonical⟩), hcount, rfl⟩
  | integer word | float word | long word | double word | classRef word | string word
  | methodType word =>
    simp only [writeFields, Except.ok.injEq] at hbytes
    subst hbytes
    simp only [readFields, tag, Reader.reads_map, Reader.reads_u2, Reader.reads_u4,
      Reader.reads_u8]
    exact ⟨_, ⟨trivial, rfl⟩, rfl⟩
  | fieldRef first second | methodRef first second | interfaceMethodRef first second
  | nameAndType first second | invokeDynamic first second =>
    simp only [writeFields, Except.ok.injEq] at hbytes
    subst hbytes
    simp only [readFields, tag, Reader.reads_map₂, Reader.reads_u2]
    exact ⟨[], first, Bytes.ofU2 second ++ rest, [], second, ⟨rfl, by rw [List.append_assoc]⟩,
      ⟨rfl, rfl⟩, rfl, rfl⟩
  | methodHandle kind member =>
    simp only [writeFields, Except.ok.injEq] at hbytes
    subst hbytes
    simp only [readFields, tag, Reader.reads_map₂, Reader.reads_u2,
      ReferenceKind.inverts_read _ _ _ _]
    exact ⟨[], kind, Bytes.ofU2 member ++ rest, [], member,
      ⟨rfl, trivial, _, rfl, by rw [List.append_assoc]⟩, ⟨rfl, rfl⟩, rfl, rfl⟩

/-- The fields of a constant are read from where they are written, behind the tag of its kind. -/
theorem reads_readFields {tag : UInt8} :
    (readFields tag).Reads input reports constant rest ↔
      reports = [] ∧ constant.tag = tag ∧ constant.Canonical ∧
        ∃ bytes, constant.writeFields = .ok bytes ∧ input = bytes ++ rest := by
  constructor
  · exact writeFields_of_reads_readFields
  · rintro ⟨rfl, rfl, hcanonical, bytes, hbytes, rfl⟩
    exact reads_readFields_of_writeFields hcanonical hbytes rest

end Fields

/-- A reader of constants inverts the writer. -/
theorem inverts_read : Constant.read.Inverts Canonical Constant.write := by
  intro input reports constant rest
  simp only [Constant.read, Constant.write, Reader.reads_u1_bind, reads_readFields, bind_eq_ok,
    pure_eq_ok]
  constructor
  · rintro ⟨tag, _, rfl, rfl, rfl, hcanonical, fields, hfields, rfl⟩
    exact ⟨rfl, hcanonical, _, ⟨fields, hfields, rfl⟩, by rw [List.append_assoc]⟩
  · rintro ⟨rfl, hcanonical, _, ⟨fields, hfields, rfl⟩, rfl⟩
    exact ⟨constant.tag, fields ++ rest, by rw [List.append_assoc], rfl, rfl, hcanonical, fields,
      hfields, rfl⟩

end Constant

end JavaClass
