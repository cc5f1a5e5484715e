import JavaClass.Text.Quoted

/-!
# Diagnostics

What a read has to report beside its result. Skipped attributes and unused bytes do not stop a read;
an opcode that cannot be decoded is reported and then stops it.
-/

namespace JavaClass

/-- Something that was noticed while reading a class file. -/
inductive Diagnostic where
  /-- An attribute of no known name was skipped. -/
  | skippedAttribute (name : String) (length : UInt32)
  /-- The instruction at this offset of the code has variable length. -/
  | unsupportedOpcode (opcode : UInt8) (offset : Nat)
  /-- No operation has this byte, which stands at this offset of the code. -/
  | unknownOpcode (opcode : UInt8) (offset : Nat)
  /-- An attribute declares more bytes than its kind makes use of. -/
  | unusedBytes (name : String) (declared consumed : UInt32)
deriving DecidableEq, Repr

open Text in
/-- The message for a diagnostic. -/
def Diagnostic.message : Diagnostic → String
  | .skippedAttribute name length =>
    s!"skipping unknown attribute {quoted name} ({length} bytes)"
  | .unsupportedOpcode opcode offset =>
    s!"unsupported instruction 0x{hexByte opcode} at offset {offset}"
  | .unknownOpcode opcode offset => s!"invalid opcode 0x{hexByte opcode} at offset {offset}"
  | .unusedBytes name declared consumed =>
    s!"attribute {quoted name} declares {declared} bytes but only {consumed} were used"

end JavaClass
