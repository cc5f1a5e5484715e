import JavaClass.Instruction
import JavaClass.ConstantPool

/-!
# Attributes

Attributes hang on classes, fields, methods and method bodies. Four kinds are known; a method body
is an attribute that has attributes itself. Every attribute holds the index of its own name.

- `Attribute.length`: the number of bytes of an attribute, its header aside.
- `Attribute.find?`, `Attribute.findNamed?`, `Attribute.remove`: operations on lists of attributes.
-/

namespace JavaClass

/-- From an instruction on, the code belongs to a line of the source. -/
structure LineNumber where
  /-- The offset of the instruction. -/
  startPc : UInt16
  /-- The number of the line. -/
  line : UInt16
deriving DecidableEq, Repr

/-- Where control goes when code throws an exception. -/
structure ExceptionHandler where
  /-- The offset at which the code starts. -/
  startPc : UInt16
  /-- The offset before which the code ends. -/
  endPc : UInt16
  /-- The offset at which control goes on. -/
  handlerPc : UInt16
  /-- The class of the exceptions that are caught; without it, all are. -/
  catchType : Option ConstantIndex
deriving DecidableEq, Repr

/-- A method body, its attributes aside. -/
structure MethodBody where
  /-- The index of the name of the attribute. -/
  name : ConstantIndex
  /-- The greatest depth of the operand stack. -/
  maxStack : UInt16
  /-- The number of local variables. -/
  maxLocals : UInt16
  /-- The instructions, at their offsets in the code. -/
  instructions : OffsetArray Instruction
  /-- The exception handlers, in the order in which they are tried. -/
  handlers : List ExceptionHandler
deriving DecidableEq, Repr

/-- The number of bytes of the code. -/
def MethodBody.codeLength (body : MethodBody) : Nat := body.instructions.totalWidth

/-- The greatest number of bytes of code that a method can have. -/
def MethodBody.maxCodeLength : Nat := 65535

/-- An attribute. -/
inductive Attribute where
  /-- The file that a class was compiled from. -/
  | sourceFile (name file : ConstantIndex)
  /-- The value that a field starts with. -/
  | constantValue (name value : ConstantIndex)
  /-- The body of a method, and its attributes. -/
  | code (body : MethodBody) (attributes : List Attribute)
  /-- The lines of the source that code belongs to. -/
  | lineNumberTable (name : ConstantIndex) (lines : List LineNumber)
deriving Repr

namespace Attribute

instance : Inhabited Attribute := ⟨sourceFile 0 0⟩

mutual

/-- Decides whether two attributes are equal. -/
def decEq : (first second : Attribute) → Decidable (first = second)
  | sourceFile m a, sourceFile n b => decidable_of_iff (m = n ∧ a = b) (by simp)
  | constantValue m a, constantValue n b => decidable_of_iff (m = n ∧ a = b) (by simp)
  | lineNumberTable m as, lineNumberTable n bs => decidable_of_iff (m = n ∧ as = bs) (by simp)
  | code a as, code b bs =>
    have := decEqList as bs
    decidable_of_iff (a = b ∧ as = bs) (by simp)
  | sourceFile .., constantValue .. | sourceFile .., lineNumberTable ..
  | sourceFile .., code .. | constantValue .., sourceFile ..
  | constantValue .., lineNumberTable .. | constantValue .., code ..
  | lineNumberTable .., sourceFile .. | lineNumberTable .., constantValue ..
  | lineNumberTable .., code .. | code .., sourceFile .. | code .., constantValue ..
  | code .., lineNumberTable .. => isFalse (by simp)

/-- Decides whether two lists of attributes are equal. -/
def decEqList : (first second : List Attribute) → Decidable (first = second)
  | [], [] => isTrue rfl
  | a :: as, b :: bs =>
    match decEq a b with
    | isFalse h => isFalse (by simp [h])
    | isTrue h =>
      match decEqList as bs with
      | isFalse h' => isFalse (by simp [h'])
      | isTrue h' => isTrue (by rw [h, h'])
  | [], _ :: _ | _ :: _, [] => isFalse (by simp)

end

instance : DecidableEq Attribute := decEq

/-- The index of the name of an attribute. -/
def name : Attribute → ConstantIndex
  | sourceFile name _ | constantValue name _ | lineNumberTable name _ => name
  | code body _ => body.name

/-! ## Lengths -/

/-- The number of bytes of the header of an attribute: the index of its name and its length. -/
def headerLength : Nat := 6

/-- The length of a method body whose attributes take up so many bytes. -/
def bodyLength (body : MethodBody) (attributesLength : Nat) : Except Error UInt32 :=
  count32 "attribute bytes" (12 + 8 * body.handlers.length + body.codeLength + attributesLength)

mutual

/-- The number of bytes of an attribute, its header aside. Of a method body, the length of the code
is checked before its attributes. -/
def length : Attribute → Except Error UInt32
  | sourceFile .. | constantValue .. => .ok 2
  | lineNumberTable _ lines => count32 "attribute bytes" (2 + 4 * lines.length)
  | code body attributes => do
    if body.codeLength > MethodBody.maxCodeLength then throw (.codeTooLong body.codeLength)
    bodyLength body (← totalLengthFrom 0 attributes)

/-- The number of bytes of some attributes with their headers, added to a number of bytes. -/
def totalLengthFrom (total : Nat) : List Attribute → Except Error Nat
  | [] => .ok total
  | first :: others => do
    let length ← first.length
    totalLengthFrom (total + (headerLength + length.toNat)) others

end

/-! ## Lists of attributes -/

/-- The first attribute whose name is at an index. -/
def find? (attributes : List Attribute) (name : ConstantIndex) : Option Attribute :=
  attributes.find? (·.name = name)

/-- The first attribute with a name. Names that are not text are passed over. -/
def findNamed? (attributes : List Attribute) (pool : ConstantPool) (name : String) :
    Option Attribute :=
  attributes.find? fun found => (pool.text found.name).toOption = some name

/-- The attributes whose name is not at an index. -/
def remove (attributes : List Attribute) (name : ConstantIndex) : List Attribute :=
  attributes.filter (·.name ≠ name)

end Attribute

end JavaClass
