import JavaClass.Proofs.Attribute.Capacity
import JavaClass.Proofs.ClassFile.Layout

/-!
# Limits of class files

A class file is refused exactly if it exceeds a limit of the format: for the bytes of a string, for
the entries of a table, for the code of a method, or for the contents of an attribute, at whatever
depth. All other class files are written, with all counts and lengths as they are.

- `ClassFile.Exceeds`: a class file exceeds a limit, and the error that says so.
- `ClassFile.exceeds_of_toBytes`: what is refused exceeds a limit.
- `ClassFile.not_exceeds_of_toBytes`: what is written exceeds none.
- `ClassFile.toBytes_eq_error_iff_exceeds`: both together, with the layout of what is written.
-/

namespace JavaClass

variable {bytes : Bytes} {cause : Error}

/-! ## Pools -/

namespace Constant

variable {constant : Constant} {encoded : Bytes}

/-- A constant is refused only for the bytes of its string. -/
theorem exists_encoding?_of_write (h : constant.write = .error cause) :
    ∃ encoded, constant.encoding? = some encoded ∧ 0xFFFF < encoded.length ∧
      cause = .tooMany "modified UTF-8 bytes" encoded.length := by
  simp only [Constant.write, bind_eq_error, pure_ne_error, and_false, exists_false, or_false] at h
  rcases hencoding : constant.encoding? with - | encoded
  · obtain ⟨fields, hfields⟩ := exists_writeFields_of_encoding?_eq_none hencoding
    rw [hfields] at h
    cases h
  · rw [writeFields_of_encoding? hencoding, writeString] at h
    simp only [bind_eq_error, pure_ne_error, and_false, exists_false, or_false,
      count16_eq_error_iff] at h
    exact ⟨encoded, rfl, h⟩

/-- Two bytes can say how many bytes the string of a constant that is written has. -/
theorem length_encoding?_lt_of_write (h : constant.write = .ok bytes)
    (hencoding : constant.encoding? = some encoded) : encoded.length < 0x10000 := by
  obtain ⟨hnone, -⟩ | ⟨hsome, hcount⟩ := hasLayout_of_write h
  · rw [hencoding] at hnone
    cases hnone
  · obtain rfl := Option.some.inj (hencoding.symm.trans hsome)
    exact hcount.lt

end Constant

/-- A pool that was filled is refused only for one of its constants. -/
theorem ConstantPool.exists_of_write_eq_error {pool : ConstantPool} (hpool : pool.Reachable)
    (h : pool.write = .error cause) :
    ∃ constant ∈ pool.constants.elements, constant.write = .error cause := by
  simp only [ConstantPool.write, bind_eq_error, pure_ne_error, and_false, exists_false, or_false,
    count16_eq_error_iff] at h
  obtain ⟨hle, -⟩ | ⟨_, -, hall⟩ := h
  · -- The pool has refused all constants that would have made its count too large.
    have hnext := hpool.next_le
    unfold limit at hnext
    omega
  · exact exists_of_writeAll_eq_error hall

/-! ## Lists of attributes -/

/-- Some attributes are too many, or one of them exceeds a limit within it. -/
inductive Attribute.ListExceeds (attributes : List Attribute) : Error → Prop where
  /-- Two bytes cannot say how many attributes there are. -/
  | count (h : 0xFFFF < attributes.length) :
    ListExceeds attributes (.tooMany "attributes" attributes.length)
  /-- Something that hangs on one of the attributes exceeds a limit. -/
  | entry {attr : Attribute} {cause : Error} (hmem : attr ∈ attributes)
    (h : attr.ExceedsWithin cause) : ListExceeds attributes cause

namespace Attribute

variable {attributes : List Attribute}

/-- Attributes are refused only for a limit that they exceed. -/
theorem listExceeds_of_writeList (hlaid : ∀ attr ∈ attributes, attr.IsLaidOut)
    (h : writeList attributes = .error cause) : ListExceeds attributes cause := by
  obtain ⟨hle, rfl⟩ | ⟨attr, hmem, hattr⟩ := exists_of_writeTable_eq_error h
  · exact .count hle
  · exact .entry hmem (exceedsWithin_of_write (hlaid attr hmem) hattr)

/-- Attributes that are written exceed no limit. -/
theorem not_listExceeds_of_writeList (hlaid : ∀ attr ∈ attributes, attr.IsLaidOut)
    (h : writeList attributes = .ok bytes) : ¬ ListExceeds attributes cause := by
  rintro (hlong | ⟨hmem, hexceeds⟩)
  · exact absurd (isTable_of_writeList hlaid h).length_lt (Nat.not_lt.mpr hlong)
  · obtain ⟨count, all, -, hall, -⟩ := writeTable_eq_ok.mp h
    obtain ⟨piece, hpiece, -⟩ := exists_write_of_mem hall hmem
    exact not_exceedsWithin_of_write (hlaid _ hmem) hpiece hexceeds

/-- Errors about limits within attributes are about limits. -/
theorem ListExceeds.isOverflow (h : ListExceeds attributes cause) : cause.IsOverflow := by
  obtain - | ⟨-, found, -, hexceeds⟩ := h
  · trivial
  · cases hexceeds <;> trivial

end Attribute

/-- A member is refused only for its attributes. -/
theorem Member.writeList_of_write_eq_error {declaration : Declaration}
    {member : Member declaration} (h : member.write = .error cause) :
    Attribute.writeList member.attributes = .error cause := by
  simpa only [Member.write, bind_eq_error, pure_ne_error, and_false, exists_false, or_false] using h

/-! ## Class files -/

namespace ClassFile

variable {file : ClassFile}

/-- A class file exceeds a limit, and this is the error about it. -/
inductive Exceeds (file : ClassFile) : Error → Prop where
  /-- Two bytes cannot say how many bytes a string in the pool has. -/
  | string {constant : Constant} {encoded : Bytes}
    (hmem : constant ∈ file.constants.constants.elements)
    (hencoding : constant.encoding? = some encoded) (h : 0xFFFF < encoded.length) :
    Exceeds file (.tooMany "modified UTF-8 bytes" encoded.length)
  /-- Two bytes cannot say how many interfaces there are. -/
  | interfaces (h : 0xFFFF < file.interfaces.length) :
    Exceeds file (.tooMany "interfaces" file.interfaces.length)
  /-- Two bytes cannot say how many fields there are. -/
  | fields (h : 0xFFFF < file.fields.length) : Exceeds file (.tooMany "fields" file.fields.length)
  /-- Two bytes cannot say how many methods there are. -/
  | methods (h : 0xFFFF < file.methods.length) :
    Exceeds file (.tooMany "methods" file.methods.length)
  /-- The attributes of a field exceed a limit. -/
  | ofField {field : Field} {cause : Error} (hmem : field ∈ file.fields)
    (h : Attribute.ListExceeds field.attributes cause) : Exceeds file cause
  /-- The attributes of a method exceed a limit. -/
  | ofMethod {method : Method} {cause : Error} (hmem : method ∈ file.methods)
    (h : Attribute.ListExceeds method.attributes cause) : Exceeds file cause
  /-- The attributes of the class exceed a limit. -/
  | ofClass {cause : Error} (h : Attribute.ListExceeds file.attributes cause) : Exceeds file cause

/-- What is said of a limit is said with one of two errors. -/
theorem Exceeds.isOverflow (h : file.Exceeds cause) : cause.IsOverflow := by
  cases h with
  | string | interfaces | fields | methods => trivial
  | ofField _ h | ofMethod _ h | ofClass h => exact h.isOverflow

/-- A table of members is refused for their number, or for the attributes of one of them. -/
theorem of_writeTable_members_eq_error {declaration : Declaration}
    {members : List (Member declaration)} {what : String}
    (hlaid : ∀ member ∈ members, ∀ attr ∈ member.attributes, attr.IsLaidOut)
    (h : writeTable what Member.write members = .error cause) :
    0xFFFF < members.length ∧ cause = .tooMany what members.length ∨
      ∃ member ∈ members, Attribute.ListExceeds member.attributes cause := by
  obtain hcount | ⟨member, hmem, hmember⟩ := exists_of_writeTable_eq_error h
  · exact .inl hcount
  · exact .inr ⟨member, hmem, Attribute.listExceeds_of_writeList (hlaid member hmem)
      (Member.writeList_of_write_eq_error hmember)⟩

/-- A class file is refused for its pool, its interfaces, its fields, its methods or its
attributes. -/
theorem of_toBytes_eq_error (h : file.toBytes = .error cause) :
    file.constants.write = .error cause ∨
      writeTable "interfaces" (fun index => .ok (Bytes.ofU2 index)) file.interfaces =
        .error cause ∨
      writeTable "fields" Member.write file.fields = .error cause ∨
      writeTable "methods" Member.write file.methods = .error cause ∨
      Attribute.writeList file.attributes = .error cause := by
  simp only [toBytes, bind_eq_error, pure_ne_error, and_false, exists_false, or_false] at h
  obtain h | ⟨_, -, h | ⟨_, -, h | ⟨_, -, h | ⟨_, -, h⟩⟩⟩⟩ := h
  · exact .inl h
  · exact .inr (.inl h)
  · exact .inr (.inr (.inl h))
  · exact .inr (.inr (.inr (.inl h)))
  · exact .inr (.inr (.inr (.inr h)))

/-- A class file that was filled is refused only for a limit that it exceeds. -/
theorem exceeds_of_toBytes (hfilled : file.IsFilled) (h : file.toBytes = .error cause) :
    file.Exceeds cause := by
  obtain hconstants | hinterfaces | hfields | hmethods | hattributes := of_toBytes_eq_error h
  · obtain ⟨constant, hmem, hconstant⟩ :=
      ConstantPool.exists_of_write_eq_error hfilled.constants hconstants
    obtain ⟨encoded, hencoding, hlong, rfl⟩ := Constant.exists_encoding?_of_write hconstant
    exact .string hmem hencoding hlong
  · obtain ⟨hlong, rfl⟩ := of_writeTable_ok_eq_error hinterfaces
    exact .interfaces hlong
  · obtain ⟨hlong, rfl⟩ | ⟨field, hmem, hfield⟩ := of_writeTable_members_eq_error
      (fun field hmem attr hattr => hfilled.isLaidOut (.inl ⟨field, hmem, hattr⟩)) hfields
    · exact .fields hlong
    · exact .ofField hmem hfield
  · obtain ⟨hlong, rfl⟩ | ⟨method, hmem, hmethod⟩ := of_writeTable_members_eq_error
      (fun method hmem attr hattr => hfilled.isLaidOut (.inr (.inl ⟨method, hmem, hattr⟩)))
      hmethods
    · exact .methods hlong
    · exact .ofMethod hmem hmethod
  · exact .ofClass (Attribute.listExceeds_of_writeList
      (fun attr hattr => hfilled.isLaidOut (.inr (.inr hattr))) hattributes)

/-- The attributes of members that are written exceed no limit. -/
theorem not_listExceeds_of_writeTable {declaration : Declaration}
    {members : List (Member declaration)} {what : String} {member : Member declaration}
    (hlaid : ∀ attr ∈ member.attributes, attr.IsLaidOut)
    (h : writeTable what Member.write members = .ok bytes) (hmem : member ∈ members) :
    ¬ Attribute.ListExceeds member.attributes cause := by
  obtain ⟨count, all, -, hall, -⟩ := writeTable_eq_ok.mp h
  obtain ⟨piece, hpiece, -⟩ := exists_write_of_mem hall hmem
  obtain ⟨list, hlist, -⟩ := Member.write_eq_ok.mp hpiece
  exact Attribute.not_listExceeds_of_writeList hlaid hlist

/-- A class file that is written exceeds no limit. -/
theorem not_exceeds_of_toBytes (hfilled : file.IsFilled) (h : file.toBytes = .ok bytes) :
    ¬ file.Exceeds cause := by
  obtain ⟨_, _, _, _, _, -, hinterfaceTable, hfieldTable, hmethodTable, -, -⟩ :=
    hasLayout_of_toBytes hfilled h
  obtain ⟨_, fields, methods, attributes, hfront, hfields, hmethods, hattributes, -⟩ :=
    toBytes_eq_ok.mp h
  intro hexceeds
  cases hexceeds with
  | string hmem hencoding hlong =>
    -- The constant was written itself, behind a count of its bytes.
    simp only [writeFront, ConstantPool.write, bind_eq_ok, pure_eq_ok] at hfront
    obtain ⟨_, ⟨_, -, all, hall, -⟩, -⟩ := hfront
    obtain ⟨piece, hpiece, -⟩ := exists_write_of_mem hall hmem
    exact absurd (Constant.length_encoding?_lt_of_write hpiece hencoding) (Nat.not_lt.mpr hlong)
  | interfaces hlong => exact absurd hinterfaceTable.length_lt (Nat.not_lt.mpr hlong)
  | fields hlong => exact absurd hfieldTable.length_lt (Nat.not_lt.mpr hlong)
  | methods hlong => exact absurd hmethodTable.length_lt (Nat.not_lt.mpr hlong)
  | ofField hmem hfield =>
    exact not_listExceeds_of_writeTable
      (fun attr hattr => hfilled.isLaidOut (.inl ⟨_, hmem, hattr⟩)) hfields hmem hfield
  | ofMethod hmem hmethod =>
    exact not_listExceeds_of_writeTable
      (fun attr hattr => hfilled.isLaidOut (.inr (.inl ⟨_, hmem, hattr⟩))) hmethods hmem hmethod
  | ofClass hclass =>
    exact Attribute.not_listExceeds_of_writeList
      (fun attr hattr => hfilled.isLaidOut (.inr (.inr hattr))) hattributes hclass

/-- A class file that was filled is refused exactly if it exceeds a limit, with an error about a
limit that it exceeds. Otherwise all counts and lengths in what is written are those of what they
stand in front of. -/
theorem toBytes_eq_error_iff_exceeds (h : file.IsFilled) :
    ((∃ cause, file.toBytes = .error cause) ↔ ∃ cause, file.Exceeds cause) ∧
      (∀ cause, file.toBytes = .error cause → file.Exceeds cause ∧ cause.IsOverflow) ∧
      ∀ bytes, file.toBytes = .ok bytes → file.HasLayout bytes := by
  refine ⟨⟨?_, ?_⟩, ?_, ?_⟩
  · rintro ⟨cause, herror⟩
    exact ⟨cause, exceeds_of_toBytes h herror⟩
  · rintro ⟨cause, hexceeds⟩
    -- There are only two outcomes, and what is written would exceed no limit.
    cases hwrite : file.toBytes with
    | error cause => exact ⟨cause, rfl⟩
    | ok bytes => exact absurd hexceeds (not_exceeds_of_toBytes h hwrite)
  · intro cause herror
    have hexceeds := exceeds_of_toBytes h herror
    exact ⟨hexceeds, hexceeds.isOverflow⟩
  · intro bytes hwrite
    exact hasLayout_of_toBytes h hwrite

/-- A class that implements the interface of its own name more often than two bytes can say. -/
def withManyInterfaces : ClassFile :=
  { withEmptyMethod with interfaces := List.replicate 0x10000 2 }

/-- A class with a method that does nothing is written with all counts in front of its tables, and
refused with too many interfaces. -/
theorem exists_error_withManyInterfaces :
    withEmptyMethod.IsFilled ∧ withManyInterfaces.IsFilled ∧
      (∃ bytes, withEmptyMethod.toBytes = .ok bytes ∧ withEmptyMethod.HasLayout bytes) ∧
      withManyInterfaces.Exceeds (.tooMany "interfaces" 0x10000) ∧
      ∃ cause, withManyInterfaces.toBytes = .error cause := by
  have hempty : withEmptyMethod.IsFilled :=
    ⟨wellFormed_withEmptyMethod.reachable,
      fun body attributes hholds => ⟨0, wellFormed_withEmptyMethod.code body attributes hholds⟩⟩
  -- Interfaces hold no attributes.
  have hmany : withManyInterfaces.IsFilled := ⟨hempty.constants, hempty.code⟩
  have hlength : withManyInterfaces.interfaces.length = 0x10000 := List.length_replicate
  have hexceeds : withManyInterfaces.Exceeds (.tooMany "interfaces" 0x10000) :=
    hlength ▸ .interfaces (by rw [hlength]; decide)
  exact ⟨hempty, hmany, ⟨_, rfl, (toBytes_eq_error_iff_exceeds hempty).2.2 _ rfl⟩, hexceeds,
    (toBytes_eq_error_iff_exceeds hmany).1.mpr ⟨_, hexceeds⟩⟩

end ClassFile

end JavaClass
