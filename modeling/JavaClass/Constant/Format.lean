import JavaClass.Writer

/-!
# Constants in a class file

A constant is written as its tag and its fields. A string is written in modified UTF-8 behind a
count of its bytes, and is read as text if it is text and as units otherwise.
-/

namespace JavaClass

/-- Reads the number of a kind of method handle. -/
def ReferenceKind.read : Reader ReferenceKind := do
  let byte ← Reader.u1
  match ReferenceKind.ofByte? byte with
  | some kind => return kind
  | none => Reader.fail (.unknownReferenceKind byte)

namespace Constant

/-- The constant for a string of units: text if it can be. -/
def ofUnits (units : List UInt16) : Constant :=
  match Utf16.toText? units with
  | some text => .utf8 text
  | none => .utf16 units

/-- The units of a string in modified UTF-8. -/
def unitsOfBytes (bytes : Bytes) : Except Error (List UInt16) :=
  (ModifiedUtf8.decode bytes).mapError .notModifiedUtf8

/-- The text of a string in modified UTF-8. -/
def textOfBytes (bytes : Bytes) : Except Error String :=
  (ModifiedUtf8.decodeText bytes).mapError .notModifiedUtf8

/-- Reads the fields of a constant with a given tag. -/
def readFields (tag : UInt8) : Reader Constant :=
  match tag with
  | 1 => do
    let bytes ← Reader.bytes (← Reader.u2).toNat
    return ofUnits (← Reader.ofExcept (unitsOfBytes bytes))
  -- Signed numbers have the bits of the unsigned ones that are read.
  | 3 => return .integer ⟨← Reader.u4⟩
  | 4 => return .float (← Reader.u4)
  | 5 => return .long ⟨← Reader.u8⟩
  | 6 => return .double (← Reader.u8)
  | 7 => return .classRef (← Reader.u2)
  | 8 => return .string (← Reader.u2)
  | 9 => return .fieldRef (← Reader.u2) (← Reader.u2)
  | 10 => return .methodRef (← Reader.u2) (← Reader.u2)
  | 11 => return .interfaceMethodRef (← Reader.u2) (← Reader.u2)
  | 12 => return .nameAndType (← Reader.u2) (← Reader.u2)
  | 15 => return .methodHandle (← ReferenceKind.read) (← Reader.u2)
  | 16 => return .methodType (← Reader.u2)
  | 18 => return .invokeDynamic (← Reader.u2) (← Reader.u2)
  | tag => Reader.fail (.unknownTag tag)

/-- Reads a constant. -/
def read : Reader Constant := do
  readFields (← Reader.u1)

/-- The bytes of a string behind their count. -/
def writeString (encoded : Bytes) : Except Error Bytes := do
  return Bytes.ofU2 (← count16 "modified UTF-8 bytes" encoded.length) ++ encoded

/-- The bytes of the fields of a constant. -/
def writeFields : Constant → Except Error Bytes
  | utf8 text => writeString (ModifiedUtf8.encodeText text)
  | utf16 units => writeString (ModifiedUtf8.encode units)
  | integer value => .ok (Bytes.ofU4 value.toUInt32)
  | float bits => .ok (Bytes.ofU4 bits)
  | long value => .ok (Bytes.ofU8 value.toUInt64)
  | double bits => .ok (Bytes.ofU8 bits)
  | classRef index | string index | methodType index => .ok (Bytes.ofU2 index)
  | fieldRef first second | methodRef first second | interfaceMethodRef first second
  | nameAndType first second | invokeDynamic first second =>
    .ok (Bytes.ofU2 first ++ Bytes.ofU2 second)
  | methodHandle kind member => .ok (Bytes.ofU1 kind.toByte ++ Bytes.ofU2 member)

/-- The bytes of a constant. -/
def write (constant : Constant) : Except Error Bytes := do
  return Bytes.ofU1 constant.tag ++ (← constant.writeFields)

end Constant

end JavaClass
