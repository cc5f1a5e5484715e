import JavaClass.Member
import JavaClass.ConstantPool.Format
import JavaClass.Version

/-!
# Class files

A class file with all its sections, and how it is read and written.

- `ClassFile.read`, `ClassFile.ofBytes`: reading. The sections are read in the order of the file,
  and an error discards all that was read so far.
- `ClassFile.toBytes`: writing.
- `ClassFile.name`, `ClassFile.superName`: the names of the class and of its super class.
-/

namespace JavaClass

/-- The contents of a class file. -/
structure ClassFile where
  /-- The version of the format. -/
  version : Version
  /-- The constants that the other sections refer to. -/
  constants : ConstantPool
  /-- The access flags. -/
  flags : AccessFlags .type
  /-- The index of the class itself. -/
  thisClass : ConstantIndex
  /-- The index of the super class, which every class but one has. -/
  superClass : Option ConstantIndex
  /-- The indices of the interfaces that the class implements. -/
  interfaces : List ConstantIndex := []
  /-- The fields, in order. -/
  fields : List Field := []
  /-- The methods, in order. -/
  methods : List Method := []
  /-- The attributes of the class, in order. -/
  attributes : List Attribute := []

namespace ClassFile

/-- Class files are equal when all their sections are. -/
instance : BEq ClassFile where
  beq first second :=
    first.version == second.version && first.constants == second.constants &&
      first.flags == second.flags && first.thisClass == second.thisClass &&
      first.superClass == second.superClass && first.interfaces == second.interfaces &&
      first.fields == second.fields && first.methods == second.methods &&
      first.attributes == second.attributes

/-- The bytes that every class file starts with. -/
def magic : Bytes := [0xCA, 0xFE, 0xBA, 0xBE]

/-- The name of the class. -/
def name (file : ClassFile) : Except Error String := file.constants.className file.thisClass

/-- The name of the super class, if there is one. -/
def superName (file : ClassFile) : Except Error (Option String) :=
  file.superClass.mapM file.constants.className

/-! ## Reading -/

/-- Reads the bytes that every class file starts with. -/
def readMagic : Reader Unit := do
  let ⟨found, _⟩ ← Reader.fixed magic.length
  if found = magic then return () else Reader.fail (.notClassFile found)

/-- Reads an index at which there must be a class. -/
def readClassIndex (pool : ConstantPool) : Reader ConstantIndex := do
  Reader.ofExcept (pool.classIndex (← Reader.u2))

/-- Reads the index of the super class, where 0 stands for none. -/
def readSuperClass (pool : ConstantPool) : Reader (Option ConstantIndex) := do
  let index ← Reader.u2
  if index = 0 then return none
  else return some (← Reader.ofExcept (pool.classIndex index))

/-- Reads a class file. -/
def read : Reader ClassFile := do
  readMagic
  let version ← Version.read
  let constants ← ConstantPool.read
  let flags ← AccessFlags.read
  let thisClass ← readClassIndex constants
  let superClass ← readSuperClass constants
  let interfaces ← Reader.table (readClassIndex constants)
  let fields ← Reader.table (Member.read constants)
  let methods ← Reader.table (Member.read constants)
  let attributes ← Attribute.readList constants
  return { version, constants, flags, thisClass, superClass, interfaces, fields, methods,
           attributes }

/-- Reads a class file from the front of a string of bytes. -/
def ofBytes (bytes : Bytes) : Reading ClassFile := read.run bytes

/-! ## Writing -/

/-- The bytes of a class file. -/
def toBytes (file : ClassFile) : Except Error Bytes := do
  let constants ← file.constants.write
  let interfaces ← writeTable "interfaces" (fun index => .ok (Bytes.ofU2 index)) file.interfaces
  let fields ← writeTable "fields" Member.write file.fields
  let methods ← writeTable "methods" Member.write file.methods
  let attributes ← Attribute.writeList file.attributes
  return magic ++ file.version.toBytes ++ constants ++ file.flags.toBytes ++
    Bytes.ofU2 file.thisClass ++ Bytes.ofU2 (file.superClass.getD 0) ++ interfaces ++ fields ++
    methods ++ attributes

end ClassFile

end JavaClass
