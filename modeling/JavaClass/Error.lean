import JavaClass.Constant
import JavaClass.Opcode
import JavaClass.Text.Quoted

/-!
# Errors

The causes for which reading, writing or building a class file fails, and the message for each.
-/

namespace JavaClass

/-- Why a read ran out of input. -/
inductive EndOfInput where
  /-- A field of fixed size was cut off. -/
  | fixed
  /-- A field of declared size was cut off: so many bytes were expected, and so many were left. -/
  | declared (expected left : Nat)
deriving DecidableEq, Repr

/-- What is known of a read that ran out of input. -/
def EndOfInput.message : EndOfInput → String
  | .fixed => "failed to fill whole buffer"
  | .declared expected left => s!"expected {expected} bytes, got {left}"

/-- Why an operation on class files failed. -/
inductive Error where
  /-- The input ended too early. -/
  | endOfInput (cause : EndOfInput)
  /-- The input does not start as a class file does. -/
  | notClassFile (found : List UInt8)
  /-- No kind of constant has this tag. -/
  | unknownTag (tag : UInt8)
  /-- No kind of method handle has this number. -/
  | unknownReferenceKind (kind : UInt8)
  /-- The declared size of the pool is zero, or its last constant takes two slots where one is
  left. -/
  | poolMiscounted (count : UInt16)
  /-- No constant stands at this index. -/
  | noConstantAt (index : ConstantIndex)
  /-- The constant at this index is of another kind than its use asks for. -/
  | wrongKind (index : ConstantIndex) (expected found : String)
  /-- The byte at this offset is not part of modified UTF-8. -/
  | notModifiedUtf8 (offset : Nat)
  /-- The string at this index is not text. -/
  | unpairedSurrogate (index : ConstantIndex)
  /-- The text is not the descriptor of a type. -/
  | notDescriptor (descriptor : String)
  /-- The type is not that of a method. -/
  | notMethodType (descriptor : String)
  /-- The instruction at this offset of the code has variable length. -/
  | unsupportedOpcode (opcode : UInt8) (offset : Nat)
  /-- No operation has this byte, which stands at this offset of the code. -/
  | unknownOpcode (opcode : UInt8) (offset : Nat)
  /-- An instruction was given the wrong number of operand bytes. -/
  | wrongOperandCount (opcode : Opcode) (expected found : Nat)
  /-- The index does not fit into the one operand byte of the instruction. -/
  | indexTooLarge (opcode : Opcode) (index : ConstantIndex)
  /-- The pool has no room for a constant at its next offset. -/
  | poolFull (constant : Constant) (offset : Nat)
  /-- A table has more entries than its count can say. -/
  | tooMany (what : String) (count : Nat)
  /-- The code of a method has too many bytes. -/
  | codeTooLong (length : Nat)
  /-- The operand stack of a method gets too deep. -/
  | stackTooDeep (depth : Nat)
  /-- A method has too many arguments for its local variables. -/
  | tooManyLocals (locals : Nat)
deriving DecidableEq, Repr

open Text in
/-- The message for an error. -/
def Error.message : Error → String
  | .endOfInput cause => s!"I/O error: {cause.message}"
  | .notClassFile found => s!"bad magic {String.join (found.map hexByte)} (expected CAFEBABE)"
  | .unknownTag tag => s!"invalid constant tag {tag}"
  | .unknownReferenceKind kind => s!"invalid method handle kind {kind}"
  | .poolMiscounted count => s!"malformed constant pool (declared count {count})"
  | .noConstantAt index => s!"invalid constant pool index {index}"
  | .wrongKind index expected found =>
    s!"constant #{index} is a {found} (expected a {expected})"
  | .notModifiedUtf8 offset => s!"invalid modified UTF-8 at byte {offset}"
  | .unpairedSurrogate index => s!"constant #{index} has an unpaired surrogate"
  | .notDescriptor descriptor => s!"malformed descriptor {quoted descriptor}"
  | .notMethodType descriptor => s!"expected a method type, got {quoted descriptor}"
  | .unsupportedOpcode opcode offset =>
    s!"unsupported instruction 0x{hexByte opcode} at offset {offset}"
  | .unknownOpcode opcode offset => s!"invalid opcode 0x{hexByte opcode} at offset {offset}"
  | .wrongOperandCount opcode expected found =>
    s!"{opcode.mnemonic} takes {expected} operand bytes, got {found}"
  | .indexTooLarge opcode index =>
    s!"{opcode.mnemonic} can't refer to constant #{index} (only up to #255, see ldc_w)"
  | .poolFull constant offset =>
    s!"constant pool is full (adding {constant.kindName} at #{offset})"
  | .tooMany what count => s!"too many {what} ({count})"
  | .codeTooLong length => s!"method code is too long ({length} bytes)"
  | .stackTooDeep depth => s!"method max stack is too large ({depth})"
  | .tooManyLocals locals => s!"method max locals is too large ({locals})"

end JavaClass
