import JavaClass.Proofs.Attribute.Layout
import JavaClass.Proofs.ClassFile.WellFormed

/-!
# How class files stand in bytes

What the format demands of the bytes of a class file: in front of every string, every table and all
code stands how much there is of it, and the count of a pool is the number of its slots plus one.

- `Constant.HasLayout`, `ConstantPool.HasLayout`: bytes that are a constant or a pool.
- `ClassFile.HasLayout`: bytes that are a class file.
- `ClassFile.hasLayout_of_toBytes`: what is written has this layout.
-/

namespace JavaClass

variable {bytes : Bytes}

/-! ## Pools -/

namespace Constant

variable {constant : Constant} {encoded : Bytes}

/-- The string of a constant in modified UTF-8, if the constant is a string. -/
def encoding? : Constant → Option Bytes
  | utf8 text => some (ModifiedUtf8.encodeText text)
  | utf16 units => some (ModifiedUtf8.encode units)
  | _ => none

/-- The fields of a string are its encoding behind a count. -/
theorem writeFields_of_encoding? (h : constant.encoding? = some encoded) :
    constant.writeFields = writeString encoded := by
  cases constant with
  | utf8 text | utf16 units =>
    cases h
    rfl
  | _ => cases h

/-- Constants that are no strings are never refused. -/
theorem exists_writeFields_of_encoding?_eq_none (h : constant.encoding? = none) :
    ∃ bytes, constant.writeFields = .ok bytes := by
  cases constant with
  | utf8 text | utf16 units => cases h
  | _ => exact ⟨_, rfl⟩

/-- Some bytes are a constant: its tag, and its fields or, for a string, the number of bytes of the
encoding and the encoding. -/
inductive HasLayout : Constant → Bytes → Prop where
  /-- The fields of a constant that is no string have a fixed size. -/
  | fields {constant : Constant} {fields : Bytes} (hencoding : constant.encoding? = none)
    (hfields : constant.writeFields = .ok fields) :
    HasLayout constant (Bytes.ofU1 constant.tag ++ fields)
  /-- A string stands behind a count of its bytes. -/
  | string {constant : Constant} {encoded count : Bytes}
    (hencoding : constant.encoding? = some encoded) (hcount : count.Says 2 encoded.length) :
    HasLayout constant (Bytes.ofU1 constant.tag ++ (count ++ encoded))

/-- A constant that is written has the layout that the format demands. -/
theorem hasLayout_of_write (h : constant.write = .ok bytes) : constant.HasLayout bytes := by
  simp only [Constant.write, bind_eq_ok, pure_eq_ok] at h
  obtain ⟨fields, hfields, rfl⟩ := h
  rcases hencoding : constant.encoding? with - | encoded
  · exact .fields hencoding hfields
  · rw [writeFields_of_encoding? hencoding, writeString_eq_ok] at hfields
    obtain ⟨count, hcount, rfl⟩ := hfields
    exact .string hencoding (hcount ▸ Bytes.says_ofU2 count)

end Constant

namespace ConstantPool

variable {pool : ConstantPool}

/-- Some bytes are a pool: the number of its slots plus one, and its constants. -/
def HasLayout (pool : ConstantPool) (bytes : Bytes) : Prop :=
  ∃ (count : Bytes) (pieces : List Bytes),
    count.Says 2 (1 + (pool.constants.elements.map width).sum) ∧
      List.Forall₂ Constant.HasLayout pool.constants.elements pieces ∧
      bytes = count ++ pieces.flatten

/-- A pool that is written has the layout that the format demands. -/
theorem hasLayout_of_write (hpool : pool.Reachable) (h : pool.write = .ok bytes) :
    pool.HasLayout bytes := by
  simp only [ConstantPool.write, bind_eq_ok, pure_eq_ok, count16_eq_ok] at h
  obtain ⟨count, hcount, all, hall, rfl⟩ := h
  obtain ⟨pieces, hpieces, rfl⟩ := exists_pieces_of_writeAll hall
    fun _ _ _ hpiece => Constant.hasLayout_of_write hpiece
  have hnext : pool.next = 1 + (pool.constants.elements.map width).sum := hpool.filled.next_eq
  exact ⟨_, pieces, (hcount.trans hnext) ▸ Bytes.says_ofU2 count, hpieces, rfl⟩

end ConstantPool

/-! ## Members and class files -/

/-- Some bytes are a field or a method: flags, indices and a table of attributes. -/
def Member.HasLayout {declaration : Declaration} (member : Member declaration) (bytes : Bytes) :
    Prop :=
  ∃ attributes, IsTable Attribute.HasLayout member.attributes attributes ∧
    bytes = member.flags.toBytes ++ Bytes.ofU2 member.name ++ Bytes.ofU2 member.descriptor ++
      attributes

/-- Attributes that are written are a table of attributes. -/
theorem Attribute.isTable_of_writeList {attributes : List Attribute}
    (hlaid : ∀ attr ∈ attributes, attr.IsLaidOut) (h : writeList attributes = .ok bytes) :
    IsTable Attribute.HasLayout attributes bytes :=
  isTable_of_writeTable h fun attr hmem _ hpiece => hasLayout_of_write (hlaid attr hmem) hpiece

/-- A member that is written has the layout that the format demands. -/
theorem Member.hasLayout_of_write {declaration : Declaration} {member : Member declaration}
    (hlaid : ∀ attr ∈ member.attributes, attr.IsLaidOut) (h : member.write = .ok bytes) :
    member.HasLayout bytes := by
  obtain ⟨attributes, hattributes, rfl⟩ := Member.write_eq_ok.mp h
  exact ⟨attributes, Attribute.isTable_of_writeList hlaid hattributes, rfl⟩

namespace ClassFile

variable {file : ClassFile}

/-- Some bytes are a class file: its sections, with a count in front of every table. -/
def HasLayout (file : ClassFile) (bytes : Bytes) : Prop :=
  ∃ constants interfaces fields methods attributes, file.constants.HasLayout constants ∧
    IsTable (fun index piece => piece = Bytes.ofU2 index) file.interfaces interfaces ∧
    IsTable Member.HasLayout file.fields fields ∧ IsTable Member.HasLayout file.methods methods ∧
    IsTable Attribute.HasLayout file.attributes attributes ∧
    bytes = magic ++ file.version.toBytes ++ constants ++ file.flags.toBytes ++
      Bytes.ofU2 file.thisClass ++ Bytes.ofU2 (file.superClass.getD 0) ++ interfaces ++ fields ++
      methods ++ attributes

/-- The pool of a class file and the code of its methods were filled, one element after another. -/
structure IsFilled (file : ClassFile) : Prop where
  /-- The pool was filled by pushing and interning, as every pool that is read is. -/
  constants : file.constants.Reachable
  /-- The code of every method body, at whatever depth, was filled with instructions. -/
  code : ∀ body attributes, file.Holds (.code body attributes) →
    ∃ start, body.instructions.FilledFrom start

/-- The code in the attributes of a class file that was filled was laid out. -/
theorem IsFilled.isLaidOut (h : file.IsFilled) {attr : Attribute} (hattr : file.HasAttribute attr) :
    attr.IsLaidOut :=
  fun body attributes hoccurs => h.code body attributes ⟨attr, hattr, hoccurs⟩

/-- A class file that is written has the layout that the format demands. -/
theorem hasLayout_of_toBytes (hfilled : file.IsFilled) (h : file.toBytes = .ok bytes) :
    file.HasLayout bytes := by
  obtain ⟨_, fields, methods, attributes, hfront, hfields, hmethods, hattributes, rfl⟩ :=
    toBytes_eq_ok.mp h
  simp only [writeFront, bind_eq_ok, pure_eq_ok] at hfront
  obtain ⟨constants, hconstants, interfaces, hinterfaces, rfl⟩ := hfront
  refine ⟨constants, interfaces, fields, methods, attributes,
    ConstantPool.hasLayout_of_write hfilled.constants hconstants,
    isTable_of_writeTable_ok hinterfaces, ?_, ?_, ?_, by simp only [List.append_assoc]⟩
  · exact isTable_of_writeTable hfields fun field hmem _ hpiece =>
      Member.hasLayout_of_write
        (fun attr hattr => hfilled.isLaidOut (.inl ⟨field, hmem, hattr⟩)) hpiece
  · exact isTable_of_writeTable hmethods fun method hmem _ hpiece =>
      Member.hasLayout_of_write
        (fun attr hattr => hfilled.isLaidOut (.inr (.inl ⟨method, hmem, hattr⟩))) hpiece
  · exact Attribute.isTable_of_writeList (fun attr hattr => hfilled.isLaidOut (.inr (.inr hattr)))
      hattributes

end ClassFile

end JavaClass
