import JavaClass.Error
import JavaClass.Writer

/-!
# Instructions

An instruction is an opcode whose length the instruction table gives, with as many operand bytes as
the table says. The operand bytes are kept as they are.

- `Instruction.make`: the instruction of an opcode and operand bytes, if they fit.
- `Instruction.withIndex`: an instruction whose operand is an index into the constant pool.
- `Instruction.decode`: takes an instruction off the front of code, and `Instruction.decodeAll`
  decodes all of a method's code.
-/

namespace JavaClass

/-- An instruction. -/
structure Instruction where
  /-- The operation. -/
  opcode : Opcode
  /-- The bytes behind the opcode. -/
  operands : Bytes
  /-- The table gives the length of the instruction. -/
  supported : opcode.isSupported = true
  /-- There are as many operand bytes as the table says. -/
  length_operands : operands.length = opcode.operandBytes
deriving DecidableEq, Repr

namespace Instruction

/-- The instruction of an opcode and operand bytes. An opcode of variable length is refused first;
as the instruction does not stand anywhere yet, offset 0 is given. -/
def make (opcode : Opcode) (operands : Bytes) : Except Error Instruction :=
  if supported : opcode.isSupported = true then
    if length_operands : operands.length = opcode.operandBytes then
      .ok { opcode, operands, supported, length_operands }
    else .error (.wrongOperandCount opcode opcode.operandBytes operands.length)
  else .error (.unsupportedOpcode opcode.toByte 0)

/-- An instruction without operands. -/
def simple (opcode : Opcode) : Except Error Instruction := make opcode []

/-- An instruction with one operand byte. -/
def withByte (opcode : Opcode) (operand : UInt8) : Except Error Instruction := make opcode [operand]

/-- An instruction whose operand bytes are an index into the constant pool. If there is only one
such byte, the index must fit into it. -/
def withIndex (opcode : Opcode) (index : ConstantIndex) : Except Error Instruction :=
  if opcode.operandBytes = 1 then
    if index.toNat < 0x100 then make opcode [UInt8.ofNat index.toNat]
    else .error (.indexTooLarge opcode index)
  else make opcode (Bytes.ofU2 index)

/-- The number of bytes of an instruction in code. -/
def byteLength (instruction : Instruction) : Nat := 1 + instruction.operands.length

/-- In code, an instruction takes up as many places as it has bytes. -/
instance : HasWidth Instruction := ⟨byteLength⟩

/-- The number of stack entries that the instruction consumes. -/
def pops (instruction : Instruction) : Nat := instruction.opcode.pops

/-- The number of stack entries that the instruction produces. -/
def pushes (instruction : Instruction) : Nat := instruction.opcode.pushes

/-- The operand bytes that are an index into the constant pool. -/
def indexBytes (instruction : Instruction) : Bytes :=
  instruction.operands.take instruction.opcode.constantIndexBytes

/-- The operand bytes that are not an index into the constant pool. -/
def plainBytes (instruction : Instruction) : Bytes :=
  instruction.operands.drop instruction.opcode.constantIndexBytes

/-- The index into the constant pool, if the instruction has one. -/
def constantIndex? (instruction : Instruction) : Option ConstantIndex :=
  if instruction.opcode.constantIndexBytes = 0 then none
  else some (instruction.indexBytes.foldl (fun n byte => n * 0x100 + UInt16.ofNat byte.toNat) 0)

/-- An instruction in listings: the mnemonic, an index into the constant pool behind a number sign,
and the other operand bytes behind dollar signs. -/
def render (instruction : Instruction) : String :=
  let index := match instruction.constantIndex? with
    | some index => " #" ++ toString index
    | none => ""
  let operands := instruction.plainBytes.map fun byte => " $" ++ toString byte
  instruction.opcode.mnemonic ++ index ++ String.join operands

/-- The bytes of an instruction. -/
def toBytes (instruction : Instruction) : Bytes :=
  instruction.opcode.toByte :: instruction.operands

/-! ## Decoding -/

/-- Reports an opcode that cannot be decoded and fails for the same reason. -/
def refuse {α : Type} (diagnostic : Diagnostic) (cause : Error) : Reader α := do
  Reader.report diagnostic
  Reader.fail cause

/-- Takes an instruction off the front of code. Of an opcode of variable length, or a byte that is
no opcode, only that byte is read, as it is not known where the next instruction starts. -/
def decode (offset : Nat) : Reader Instruction := do
  let byte ← Reader.u1
  match Opcode.ofByte? byte with
  | none => refuse (.unknownOpcode byte offset) (.unknownOpcode byte offset)
  | some opcode =>
    if supported : opcode.isSupported = true then do
      let ⟨operands, length_operands⟩ ← Reader.fixed opcode.operandBytes
      return { opcode, operands, supported, length_operands }
    else refuse (.unsupportedOpcode byte offset) (.unsupportedOpcode byte offset)

/-- Takes one more instruction off the front of code; its offset is where the ones before it end. -/
def decodeNext (code : OffsetArray Instruction) : Reader (OffsetArray Instruction) := do
  return code.push (← decode code.next)

/-- Decodes code of so many bytes to its end. Every instruction has at least one byte, so there are
no more of them than bytes. -/
def decodeToEnd (length : Nat) : Reader (OffsetArray Instruction) :=
  Reader.iterate length (fun _ rest => !rest.isEmpty) decodeNext .empty

/-- Decodes all of a method's code. -/
def decodeAll (code : Bytes) : Reading (OffsetArray Instruction) :=
  (decodeToEnd code.length).run code

/-- The bytes of some instructions, one after another. -/
def codeBytes (code : OffsetArray Instruction) : Bytes := code.elements.flatMap toBytes

end Instruction

end JavaClass
