import JavaClass.Attribute
import JavaClass.Writer

/-!
# Attributes in a class file

An attribute is written as the index of its name, its length and its body. The name says which kind
of attribute it is; attributes with other names are skipped and reported. A known attribute is read
out of the bytes of its body alone: it is an error if they do not suffice, and reported if some are
left.

- `Attribute.read`, `Attribute.readList`: reading.
- `Attribute.write`, `Attribute.writeList`: writing.

Method bodies hold attributes, which can be method bodies again. What is nested lies inside the body
of what holds it, so its length is smaller, and reading ends.
-/

namespace JavaClass

/-- Reads an entry of a line number table. -/
def LineNumber.read : Reader LineNumber := do
  let startPc ← Reader.u2
  let line ← Reader.u2
  return { startPc, line }

/-- The bytes of an entry of a line number table. -/
def LineNumber.toBytes (entry : LineNumber) : Bytes :=
  Bytes.ofU2 entry.startPc ++ Bytes.ofU2 entry.line

/-- Reads an exception handler. The index 0 stands for the lack of a class. -/
def ExceptionHandler.read : Reader ExceptionHandler := do
  let startPc ← Reader.u2
  let endPc ← Reader.u2
  let handlerPc ← Reader.u2
  let caught ← Reader.u2
  return { startPc, endPc, handlerPc, catchType := if caught = 0 then none else some caught }

/-- The bytes of an exception handler. -/
def ExceptionHandler.toBytes (handler : ExceptionHandler) : Bytes :=
  Bytes.ofU2 handler.startPc ++ Bytes.ofU2 handler.endPc ++ Bytes.ofU2 handler.handlerPc ++
    Bytes.ofU2 (handler.catchType.getD 0)

namespace Attribute

/-- The name of attributes that tell the file that a class was compiled from. -/
def sourceFileName : String := "SourceFile"

/-- The name of attributes that hold the value that a field starts with. -/
def constantValueName : String := "ConstantValue"

/-- The name of attributes that hold the body of a method. -/
def codeName : String := "Code"

/-- The name of attributes that tell the lines that code belongs to. -/
def lineNumberTableName : String := "LineNumberTable"

/-! ## Reading -/

/-- What stands in front of the body of an attribute. -/
structure Header where
  /-- The index of the name. -/
  name : ConstantIndex
  /-- The name. -/
  text : String
  /-- The number of bytes of the body. -/
  length : UInt32
deriving DecidableEq, Repr

/-- Reads the header of an attribute. There must be a string at the index of the name; unpaired
surrogates in it are replaced. -/
def readHeader (pool : ConstantPool) : Reader Header := do
  let name ← Reader.ofExcept (pool.stringIndex (← Reader.u2))
  let text ← Reader.ofExcept (pool.textLossy name)
  let length ← Reader.u4
  return { name, text, length }

/-- Reads the body of a method, given a reader for its attributes. -/
def readCode (name : ConstantIndex) (readNested : Reader (List Attribute)) : Reader Attribute := do
  let maxStack ← Reader.u2
  let maxLocals ← Reader.u2
  let code ← Reader.bytes (← Reader.u4).toNat
  -- Instructions end where the code ends, so none of its bytes are left.
  let (instructions, _) ← Reader.within code (Instruction.decodeToEnd code.length)
  let handlers ← Reader.table ExceptionHandler.read
  let attributes ← readNested
  return .code { name, maxStack, maxLocals, instructions, handlers } attributes

/-- The reader for the body of an attribute of a known kind, given a reader for the attributes of a
method body. -/
def bodyReader? (pool : ConstantPool) (header : Header) (readNested : Reader (List Attribute)) :
    Option (Reader Attribute) :=
  if header.text = sourceFileName then some do
    return .sourceFile header.name (← Reader.ofExcept (pool.stringIndex (← Reader.u2)))
  else if header.text = constantValueName then some do
    return .constantValue header.name (← Reader.u2)
  else if header.text = codeName then some (readCode header.name readNested)
  else if header.text = lineNumberTableName then some do
    return .lineNumberTable header.name (← Reader.table LineNumber.read)
  else none

/-- Reports the bytes of a body that its reader left, if there are any. -/
def reportUnused (header : Header) (unused : Bytes) : Reader Unit :=
  if unused.isEmpty then return ()
  else
    Reader.report (.unusedBytes header.text header.length
      (header.length - UInt32.ofNat unused.length))

/-- Reads an attribute, given a reader for the attributes of a method body of a given length. The
bytes of the body are taken off the input in any case; nothing is yielded for an unknown kind. -/
def readWith (pool : ConstantPool) (readNested : Nat → Reader (List Attribute)) :
    Reader (Option Attribute) := do
  let header ← readHeader pool
  let body ← Reader.bytes header.length.toNat
  match bodyReader? pool header (readNested header.length.toNat) with
  | none =>
    Reader.report (.skippedAttribute header.text header.length)
    return none
  | some bodyReader =>
    -- The reader sees the bytes of the body and nothing behind them.
    let (found, unused) ← Reader.within body bodyReader
    reportUnused header unused
    return some found

/-- Reads a count and so many attributes, of which those of unknown kinds are dropped. -/
def readListWith (pool : ConstantPool) (readNested : Nat → Reader (List Attribute)) :
    Reader (List Attribute) := do
  return (← Reader.table (readWith pool readNested)).filterMap id

/-- Reads the attributes of a method body of a given length. An attribute inside the body is shorter
than the body, or the body would not have held it. -/
def readNested (pool : ConstantPool) (length : Nat) : Reader (List Attribute) :=
  readListWith pool fun inner =>
    if inner < length then readNested pool inner
    else Reader.fail (.endOfInput (.declared inner length))
termination_by length

/-- Reads an attribute. -/
def read (pool : ConstantPool) : Reader (Option Attribute) := readWith pool (readNested pool)

/-- Reads a count and so many attributes, of which those of unknown kinds are dropped. -/
def readList (pool : ConstantPool) : Reader (List Attribute) := readListWith pool (readNested pool)

/-! ## Writing -/

/-- The bytes of the header of an attribute. -/
def headerBytes (name : ConstantIndex) (length : UInt32) : Bytes :=
  Bytes.ofU2 name ++ Bytes.ofU4 length

/-- The bytes of a method body up to its attributes. -/
def writeBody (body : MethodBody) : Except Error Bytes := do
  let handlers ← writeTable "exception handlers" (fun handler => .ok handler.toBytes) body.handlers
  return Bytes.ofU2 body.maxStack ++ Bytes.ofU2 body.maxLocals ++
    Bytes.ofU4 (UInt32.ofNat body.codeLength) ++ Instruction.codeBytes body.instructions ++ handlers

mutual

/-- The bytes of an attribute. Its length is worked out before its body is written. -/
def write : Attribute → Except Error Bytes
  | sourceFile name file => do
    let length ← (sourceFile name file).length
    return headerBytes name length ++ Bytes.ofU2 file
  | constantValue name value => do
    let length ← (constantValue name value).length
    return headerBytes name length ++ Bytes.ofU2 value
  | lineNumberTable name lines => do
    let length ← (lineNumberTable name lines).length
    return headerBytes name length ++
      (← writeTable "line numbers" (fun entry => .ok entry.toBytes) lines)
  | code body attributes => do
    let length ← (code body attributes).length
    let front ← writeBody body
    let count ← count16 "attributes" attributes.length
    return headerBytes body.name length ++ front ++ Bytes.ofU2 count ++
      (← writeEachOnto [] attributes)

/-- The bytes of some attributes behind what is written so far, which is held last first. -/
def writeEachOnto (written : List Bytes) : List Attribute → Except Error Bytes
  | [] => .ok written.reverse.flatten
  | first :: others => do
    let bytes ← first.write
    writeEachOnto (bytes :: written) others

end

/-- The bytes of a count and of so many attributes. -/
def writeList (attributes : List Attribute) : Except Error Bytes :=
  writeTable "attributes" write attributes

end Attribute

end JavaClass
