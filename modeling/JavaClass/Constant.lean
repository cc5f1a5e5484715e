import JavaClass.OffsetArray

/-!
# Constants

The entries of a constant pool. Constants refer to each other by index into the same pool, and two
constants are equal when they are of one kind and hold the same text, bits and indices. Floating
point literals are held as bits, so equality tells apart the two zeros and all payloads of NaN.
-/

namespace JavaClass

/-- An index into a constant pool. -/
abbrev ConstantIndex := UInt16

/-- What a method handle does with its member. -/
inductive ReferenceKind where
  | getField | getStatic | putField | putStatic | invokeVirtual | invokeStatic | invokeSpecial
  | newInvokeSpecial | invokeInterface
deriving DecidableEq, Repr, Hashable

namespace ReferenceKind

/-- All kinds, in the order of their numbers. -/
def all : List ReferenceKind :=
  [getField, getStatic, putField, putStatic, invokeVirtual, invokeStatic, invokeSpecial,
    newInvokeSpecial, invokeInterface]

/-- The number of the kind in a class file, from 1 to 9. -/
def toByte (kind : ReferenceKind) : UInt8 := UInt8.ofNat (kind.ctorIdx + 1)

/-- The kind with a number. -/
def ofByte? (byte : UInt8) : Option ReferenceKind := all.find? (·.toByte = byte)

/-- The name of the kind in listings. -/
def name : ReferenceKind → String
  | getField => "GetField"
  | getStatic => "GetStatic"
  | putField => "PutField"
  | putStatic => "PutStatic"
  | invokeVirtual => "InvokeVirtual"
  | invokeStatic => "InvokeStatic"
  | invokeSpecial => "InvokeSpecial"
  | newInvokeSpecial => "NewInvokeSpecial"
  | invokeInterface => "InvokeInterface"

@[simp]
theorem ofByte?_toByte (kind : ReferenceKind) : ofByte? kind.toByte = some kind := by
  cases kind <;> rfl

end ReferenceKind

/-- An entry of a constant pool. -/
inductive Constant where
  /-- Text. -/
  | utf8 (text : String)
  /-- A string of UTF-16 units that need not be text, because surrogates may be unpaired. -/
  | utf16 (units : List UInt16)
  /-- An `int` literal. -/
  | integer (value : Int32)
  /-- A `float` literal, as its bits. -/
  | float (bits : UInt32)
  /-- A `long` literal. -/
  | long (value : Int64)
  /-- A `double` literal, as its bits. -/
  | double (bits : UInt64)
  /-- A class or an interface, by the index of its name. -/
  | classRef (name : ConstantIndex)
  /-- A `java.lang.String` literal, by the index of its text. -/
  | string (text : ConstantIndex)
  /-- A field, by the indices of its class and of its name and type. -/
  | fieldRef (owner nameAndType : ConstantIndex)
  /-- A method of a class. -/
  | methodRef (owner nameAndType : ConstantIndex)
  /-- A method of an interface. -/
  | interfaceMethodRef (owner nameAndType : ConstantIndex)
  /-- The name and the descriptor of a member. -/
  | nameAndType (name descriptor : ConstantIndex)
  /-- A `java.lang.invoke.MethodHandle` for a member. -/
  | methodHandle (kind : ReferenceKind) (member : ConstantIndex)
  /-- A method type, by the index of its descriptor. -/
  | methodType (descriptor : ConstantIndex)
  /-- A call site that is computed when first reached. -/
  | invokeDynamic (bootstrapMethod : UInt16) (nameAndType : ConstantIndex)
deriving DecidableEq, Repr

namespace Constant

/-- The byte that tells the kind of a constant in a class file. Both kinds of string share one. -/
def tag : Constant → UInt8
  | utf8 _ | utf16 _ => 1
  | integer _ => 3
  | float _ => 4
  | long _ => 5
  | double _ => 6
  | classRef _ => 7
  | string _ => 8
  | fieldRef .. => 9
  | methodRef .. => 10
  | interfaceMethodRef .. => 11
  | nameAndType .. => 12
  | methodHandle .. => 15
  | methodType _ => 16
  | invokeDynamic .. => 18

/-- Whether constants are of one kind and have the same parts. Floating point literals are compared
by their bits. -/
def beq : Constant → Constant → Bool
  | utf8 first, utf8 second => first == second
  | utf16 first, utf16 second => first == second
  | integer first, integer second => first == second
  | float first, float second => first == second
  | long first, long second => first == second
  | double first, double second => first == second
  | classRef first, classRef second | string first, string second
  | methodType first, methodType second => first == second
  | fieldRef first next, fieldRef second other | methodRef first next, methodRef second other
  | interfaceMethodRef first next, interfaceMethodRef second other
  | nameAndType first next, nameAndType second other
  | invokeDynamic first next, invokeDynamic second other => first == second && next == other
  | methodHandle first member, methodHandle second other => first == second && member == other
  | _, _ => false

instance : BEq Constant := ⟨beq⟩

instance : LawfulBEq Constant where
  eq_of_beq {first second} h := by
    change first.beq second = true at h
    -- One case for each pair of one kind, and one for all pairs of different kinds.
    fun_cases beq first second <;> simp_all [beq]
  rfl {constant} := by
    show constant.beq constant = true
    cases constant <;> simp [beq]

/-- A part of a constant, as it is fed to a hash. -/
inductive Part where
  | byte (value : UInt8)
  | word2 (value : UInt16)
  | word4 (value : UInt32)
  | word8 (value : UInt64)
  | text (value : String)
  | units (value : List UInt16)
  | kind (value : ReferenceKind)
deriving DecidableEq, Repr, Hashable

/-- What is fed to a hash behind the tag of a constant. -/
def parts : Constant → List Part
  | utf8 text => [.text text]
  | utf16 units => [.units units]
  | integer value => [.word4 value.toUInt32]
  | float bits => [.word4 bits]
  | long value => [.word8 value.toUInt64]
  | double bits => [.word8 bits]
  | classRef index | string index | methodType index => [.word2 index]
  | fieldRef first second | methodRef first second | interfaceMethodRef first second
  | nameAndType first second | invokeDynamic first second => [.word2 first, .word2 second]
  | methodHandle kind member => [.kind kind, .word2 member]

/-- What is fed to a hash for a constant. -/
def hashed (constant : Constant) : List Part := .byte constant.tag :: constant.parts

instance : Hashable Constant := ⟨fun constant => hash constant.hashed⟩

/-- The name of the kind of constant in listings and messages. -/
def kindName : Constant → String
  | utf8 _ | utf16 _ => "Utf8"
  | integer _ => "Integer"
  | float _ => "Float"
  | long _ => "Long"
  | double _ => "Double"
  | classRef _ => "Class"
  | string _ => "String"
  | fieldRef .. => "Fieldref"
  | methodRef .. => "Methodref"
  | interfaceMethodRef .. => "InterfaceMethodref"
  | nameAndType .. => "NameAndType"
  | methodHandle .. => "MethodHandle"
  | methodType _ => "MethodType"
  | invokeDynamic .. => "InvokeDynamic"

/-- Literals of eight bytes take up two slots of the pool, all other constants one. -/
instance : HasWidth Constant where
  width
    | long _ | double _ => 2
    | _ => 1

end Constant

end JavaClass
