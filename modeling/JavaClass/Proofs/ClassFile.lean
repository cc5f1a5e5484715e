import JavaClass.ClassFile
import JavaClass.Proofs.Attribute.Reading
import JavaClass.Proofs.ConstantPool.Format

/-!
# The sections of a class file

What a class file is read from, section by section. Up to the fields, the sections are read as they
are written; from there on there are attributes, which can be skipped.

- `Member.reads_read`: what a field or a method is read from.
- `ClassFile.HasSoundFront`: what is known of the sections up to the fields.
- `ClassFile.reads_read`: what a class file is read from.
- `ClassFile.toBytes_eq_ok`: what a class file is written as.
-/

namespace JavaClass

variable {input rest : Bytes} {reports : List Diagnostic}

/-- Versions are read as they are written. -/
theorem Version.inverts_read :
    Version.read.Inverts (fun _ => True) fun version => .ok version.toBytes := by
  refine Reader.inverts_ok fun input reports version rest => ?_
  simp only [Version.read, Reader.reads_u2_bind, Reader.reads_pure, toBytes]
  constructor
  · rintro ⟨minor, _, rfl, major, _, rfl, rfl, rfl, rfl⟩
    exact ⟨rfl, trivial, by rw [List.append_assoc]⟩
  · rintro ⟨rfl, -, rfl⟩
    exact ⟨version.minor, _, by rw [List.append_assoc], version.major, rest, rfl, rfl, rfl, rfl⟩

/-- Flags are read as they are written, with and without a name. -/
theorem AccessFlags.inverts_read {declaration : Declaration} :
    (AccessFlags.read : Reader (AccessFlags declaration)).Inverts (fun _ => True)
      fun flags => .ok flags.toBytes := by
  refine Reader.inverts_ok fun input reports flags rest => ?_
  simp only [AccessFlags.read, Reader.reads_map, Reader.reads_u2, toBytes]
  constructor
  · rintro ⟨bits, ⟨rfl, rfl⟩, rfl⟩
    exact ⟨rfl, trivial, rfl⟩
  · rintro ⟨rfl, -, rfl⟩
    exact ⟨flags.bits, ⟨rfl, rfl⟩, rfl⟩

/-! ## Members -/

namespace Member

variable {declaration : Declaration} {pool : ConstantPool} {member : Member declaration}

/-- There are strings at the indices of the name and of the descriptor. -/
def IsNamed (pool : ConstantPool) (member : Member declaration) : Prop :=
  pool.IsString member.name ∧ pool.IsString member.descriptor

/-- The bytes of a member up to its attributes. -/
def frontBytes (member : Member declaration) : Bytes :=
  member.flags.toBytes ++ Bytes.ofU2 member.name ++ Bytes.ofU2 member.descriptor

/-- A member is read from its front, with its attributes behind it. -/
theorem reads_read :
    (Member.read pool).Reads input reports member rest ↔
      member.IsNamed pool ∧ ∃ between, input = member.frontBytes ++ between ∧
        (Attribute.readList pool).Reads between reports member.attributes rest := by
  simp only [Member.read, AccessFlags.inverts_read.reads_bind, Reader.reads_u2_bind,
    Reader.reads_ofExcept_bind, ConstantPool.stringIndex_eq_ok_iff, Reader.reads_map, IsNamed,
    frontBytes]
  constructor
  · rintro ⟨flags, _, ⟨-, _, ⟨⟩, rfl⟩, name, _, rfl, _, ⟨rfl, hname⟩, descriptor, between, rfl, _,
      ⟨rfl, hdescriptor⟩, attributes, hattributes, rfl⟩
    exact ⟨⟨hname, hdescriptor⟩, between, by simp only [List.append_assoc], hattributes⟩
  · rintro ⟨⟨hname, hdescriptor⟩, between, rfl, hattributes⟩
    exact ⟨member.flags, _, ⟨trivial, _, rfl, by simp only [List.append_assoc]⟩, member.name, _,
      rfl, member.name, ⟨rfl, hname⟩, member.descriptor, between, rfl, member.descriptor,
      ⟨rfl, hdescriptor⟩, member.attributes, hattributes, rfl⟩

/-- A member is written as its front and its attributes. -/
theorem write_eq_ok {bytes : Bytes} :
    member.write = .ok bytes ↔
      ∃ attributes, Attribute.writeList member.attributes = .ok attributes ∧
        bytes = member.frontBytes ++ attributes := by
  simp only [Member.write, bind_eq_ok, pure_eq_ok, frontBytes, eq_comm (b := bytes)]

end Member

/-! ## Class files -/

namespace ClassFile

variable {pool : ConstantPool} {file : ClassFile}

/-- A class file starts with what all class files start with. -/
theorem reads_readMagic {value : Unit} :
    readMagic.Reads input reports value rest ↔ reports = [] ∧ input = magic ++ rest := by
  simp only [readMagic, Reader.reads_fixed_bind]
  constructor
  · rintro ⟨⟨found, hlen⟩, between, rfl, h⟩
    split at h
    · next hfound =>
      obtain ⟨rfl, -, rfl⟩ := Reader.reads_pure.mp h
      exact ⟨rfl, congrArg (· ++ rest) hfound⟩
    · exact absurd h Reader.reads_fail
  · rintro ⟨rfl, rfl⟩
    exact ⟨⟨magic, rfl⟩, rest, rfl, Reader.reads_pure.mpr ⟨rfl, rfl, rfl⟩⟩

/-- The index of a class is read as it is written, if there is a class at it. -/
theorem inverts_readClassIndex :
    (readClassIndex pool).Inverts pool.IsClass fun index => .ok (Bytes.ofU2 index) := by
  refine Reader.inverts_ok fun input reports index rest => ?_
  simp only [readClassIndex, Reader.reads_u2_bind, Reader.reads_ofExcept,
    ConstantPool.classIndex_eq_ok_iff]
  constructor
  · rintro ⟨index, _, rfl, rfl, ⟨rfl, hclass⟩, rfl⟩
    exact ⟨rfl, hclass, rfl⟩
  · rintro ⟨rfl, hclass, rfl⟩
    exact ⟨index, rest, rfl, rfl, ⟨rfl, hclass⟩, rfl⟩

/-- The index of a super class is not 0, and there is a class at it. -/
def IsSuperClass (pool : ConstantPool) (superClass : Option ConstantIndex) : Prop :=
  ∀ index, superClass = some index → index ≠ 0 ∧ pool.IsClass index

/-- The index of a super class is read as it is written, where 0 stands for none. -/
theorem inverts_readSuperClass :
    (readSuperClass pool).Inverts (IsSuperClass pool)
      fun superClass => .ok (Bytes.ofU2 (superClass.getD 0)) := by
  refine Reader.inverts_ok fun input reports superClass rest => ?_
  simp only [readSuperClass, Reader.reads_u2_bind, IsSuperClass]
  constructor
  · rintro ⟨index, between, rfl, h⟩
    split at h
    · next hzero =>
      obtain ⟨rfl, rfl, rfl⟩ := Reader.reads_pure.mp h
      exact ⟨rfl, by simp, by rw [hzero]; rfl⟩
    · next hzero =>
      simp only [Reader.reads_ofExcept_bind, ConstantPool.classIndex_eq_ok_iff,
        Reader.reads_pure] at h
      obtain ⟨_, ⟨rfl, hclass⟩, rfl, rfl, rfl⟩ := h
      exact ⟨rfl, by simpa using ⟨hzero, hclass⟩, rfl⟩
  · rintro ⟨rfl, hsuper, rfl⟩
    refine ⟨superClass.getD 0, rest, rfl, ?_⟩
    cases superClass with
    | none => exact Reader.reads_pure.mpr ⟨rfl, rfl, rfl⟩
    | some index =>
      obtain ⟨hzero, hclass⟩ := hsuper index rfl
      rw [Option.getD_some, if_neg hzero]
      simp only [Reader.reads_ofExcept_bind, ConstantPool.classIndex_eq_ok_iff, Reader.reads_pure]
      exact ⟨index, ⟨rfl, hclass⟩, trivial, rfl, trivial⟩

/-- What is known of the sections of a class file up to the fields. -/
structure HasSoundFront (file : ClassFile) : Prop where
  /-- The pool was filled with constants that can be read. -/
  constants : file.constants.Canonical
  /-- There is a class at the index of the class itself. -/
  thisClass : file.constants.IsClass file.thisClass
  /-- There is a class at the index of the super class. -/
  superClass : IsSuperClass file.constants file.superClass
  /-- There are classes at the indices of the interfaces. -/
  interfaces : ∀ index ∈ file.interfaces, file.constants.IsClass index

/-- The bytes of a class file up to its fields. -/
def writeFront (file : ClassFile) : Except Error Bytes := do
  let constants ← file.constants.write
  let interfaces ← writeTable "interfaces" (fun index => .ok (Bytes.ofU2 index)) file.interfaces
  return magic ++ file.version.toBytes ++ constants ++ file.flags.toBytes ++
    Bytes.ofU2 file.thisClass ++ Bytes.ofU2 (file.superClass.getD 0) ++ interfaces

/-- A class file is read from its front, with its fields, methods and attributes behind it. -/
theorem reads_read :
    ClassFile.read.Reads input reports file rest ↔
      file.HasSoundFront ∧ ∃ front afterFront fieldReports afterFields methodReports afterMethods
        attributeReports, file.writeFront = .ok front ∧ input = front ++ afterFront ∧
        (Reader.table (Member.read file.constants)).Reads afterFront fieldReports file.fields
          afterFields ∧
        (Reader.table (Member.read file.constants)).Reads afterFields methodReports file.methods
          afterMethods ∧
        (Attribute.readList file.constants).Reads afterMethods attributeReports file.attributes
          rest ∧
        reports = fieldReports ++ (methodReports ++ attributeReports) := by
  have table {pool : ConstantPool} :=
    (@inverts_readClassIndex pool).table "interfaces"
  simp only [ClassFile.read, Reader.reads_bind_of_silent fun _ _ _ _ => reads_readMagic,
    Version.inverts_read.reads_bind, ConstantPool.inverts_read.reads_bind,
    AccessFlags.inverts_read.reads_bind, inverts_readClassIndex.reads_bind,
    inverts_readSuperClass.reads_bind, table.reads_bind]
  -- The sections up to the fields report nothing; from the fields on, reports add up.
  simp only [Reader.reads_bind, Reader.reads_pure]
  constructor
  · rintro ⟨_, _, rfl, version, _, ⟨-, _, ⟨⟩, rfl⟩, pool, _, ⟨hpool, constants, hconstants, rfl⟩,
      flags, _, ⟨-, _, ⟨⟩, rfl⟩, thisClass, _, ⟨hthis, _, ⟨⟩, rfl⟩, superClass, _, ⟨hsuper, _, ⟨⟩,
        rfl⟩, indices, afterFront, ⟨hindices, interfaces, hinterfaces, rfl⟩, fieldReports, fields,
      afterFields, _, hfields, ⟨methodReports, methods, afterMethods, _, hmethods,
        ⟨attributeReports, attributes, _, _, hattributes, ⟨rfl, rfl, rfl⟩, rfl⟩, rfl⟩, rfl⟩
    refine ⟨⟨hpool, hthis, hsuper, hindices⟩, _, afterFront, fieldReports, afterFields,
      methodReports, afterMethods, attributeReports,
      bind_eq_ok.mpr ⟨constants, hconstants, bind_eq_ok.mpr ⟨interfaces, hinterfaces, rfl⟩⟩, ?_,
      hfields, hmethods, hattributes, by rw [List.append_nil]⟩
    simp only [List.append_assoc]
  · rintro ⟨⟨hpool, hthis, hsuper, hindices⟩, _, afterFront, fieldReports, afterFields,
      methodReports, afterMethods, attributeReports, hfront, rfl, hfields, hmethods, hattributes,
      rfl⟩
    simp only [writeFront, bind_eq_ok, pure_eq_ok] at hfront
    obtain ⟨constants, hconstants, interfaces, hinterfaces, rfl⟩ := hfront
    refine ⟨(), _, by simp only [List.append_assoc], file.version, _, ⟨trivial, _, rfl, rfl⟩,
      file.constants, _, ⟨hpool, constants, hconstants, rfl⟩, file.flags, _, ⟨trivial, _, rfl, rfl⟩,
      file.thisClass, _, ⟨hthis, _, rfl, rfl⟩, file.superClass, _, ⟨hsuper, _, rfl, rfl⟩,
      file.interfaces, afterFront, ⟨hindices, interfaces, hinterfaces, rfl⟩, fieldReports,
      file.fields, afterFields, _, hfields, ⟨methodReports, file.methods, afterMethods, _, hmethods,
        ⟨attributeReports, file.attributes, rest, [], hattributes, ⟨rfl, rfl, rfl⟩, rfl⟩, rfl⟩, ?_⟩
    rw [List.append_nil]

/-- A class file is written as its front, its fields, its methods and its attributes. -/
theorem toBytes_eq_ok {bytes : Bytes} :
    file.toBytes = .ok bytes ↔
      ∃ front fields methods attributes, file.writeFront = .ok front ∧
        writeTable "fields" Member.write file.fields = .ok fields ∧
        writeTable "methods" Member.write file.methods = .ok methods ∧
        Attribute.writeList file.attributes = .ok attributes ∧
        bytes = front ++ (fields ++ (methods ++ attributes)) := by
  simp only [toBytes, writeFront, bind_eq_ok, pure_eq_ok]
  constructor
  · rintro ⟨constants, hconstants, interfaces, hinterfaces, fields, hfields, methods, hmethods,
      attributes, hattributes, rfl⟩
    exact ⟨_, fields, methods, attributes, ⟨constants, hconstants, interfaces, hinterfaces, rfl⟩,
      hfields, hmethods, hattributes, by simp only [List.append_assoc]⟩
  · rintro ⟨_, fields, methods, attributes, ⟨constants, hconstants, interfaces, hinterfaces, rfl⟩,
      hfields, hmethods, hattributes, rfl⟩
    exact ⟨constants, hconstants, interfaces, hinterfaces, fields, hfields, methods, hmethods,
      attributes, hattributes, by simp only [List.append_assoc]⟩

end ClassFile

end JavaClass
