/-!
# Opcodes

The instruction set of the virtual machine up to `breakpoint`, with the shape and the stack effect
of every instruction.

- `Opcode.ofByte?` and `Opcode.toByte`: opcodes and their bytes; the opcodes are in byte order.
- `Opcode.info`: the instruction table.
- `Opcode.isSupported`: whether the table alone gives the length of an instruction.
-/

namespace JavaClass

/-- The operation of an instruction, named after its mnemonic. The operations stand in the order of
their bytes, from `0x00` to `0xCA`. -/
inductive Opcode where
  | nop | aconstNull | iconstM1 | iconst0 | iconst1 | iconst2 | iconst3 | iconst4 | iconst5
  | lconst0 | lconst1 | fconst0 | fconst1 | fconst2 | dconst0 | dconst1 | bipush | sipush | ldc
  | ldcW | ldc2W | iload | lload | fload | dload | aload | iload0 | iload1 | iload2 | iload3
  | lload0 | lload1 | lload2 | lload3 | fload0 | fload1 | fload2 | fload3 | dload0 | dload1
  | dload2 | dload3 | aload0 | aload1 | aload2 | aload3 | iaload | laload | faload | daload
  | aaload | baload | caload | saload | istore | lstore | fstore | dstore | astore | istore0
  | istore1 | istore2 | istore3 | lstore0 | lstore1 | lstore2 | lstore3 | fstore0 | fstore1
  | fstore2 | fstore3 | dstore0 | dstore1 | dstore2 | dstore3 | astore0 | astore1 | astore2
  | astore3 | iastore | lastore | fastore | dastore | aastore | bastore | castore | sastore | pop
  | pop2 | dup | dupX1 | dupX2 | dup2 | dup2X1 | dup2X2 | swap | iadd | ladd | fadd | dadd | isub
  | lsub | fsub | dsub | imul | lmul | fmul | dmul | idiv | ldiv | fdiv | ddiv | irem | lrem
  | frem | drem | ineg | lneg | fneg | dneg | ishl | lshl | ishr | lshr | iushr | lushr | iand
  | land | ior | lor | ixor | lxor | iinc | i2l | i2f | i2d | l2i | l2f | l2d | f2i | f2l | f2d
  | d2i | d2l | d2f | i2b | i2c | i2s | lcmp | fcmpl | fcmpg | dcmpl | dcmpg | ifeq | ifne | iflt
  | ifge | ifgt | ifle | ifIcmpeq | ifIcmpne | ifIcmplt | ifIcmpge | ifIcmpgt | ifIcmple
  | ifAcmpeq | ifAcmpne | goto | jsr | ret | tableswitch | lookupswitch | ireturn | lreturn
  | freturn | dreturn | areturn | returnVoid | getstatic | putstatic | getfield | putfield
  | invokevirtual | invokespecial | invokestatic | invokeinterface | invokedynamic | newObject
  | newarray | anewarray | arraylength | athrow | checkcast | instanceof | monitorenter
  | monitorexit | wide | multianewarray | ifnull | ifnonnull | gotoW | jsrW | breakpoint
deriving DecidableEq, Repr, Inhabited

namespace Opcode

/-- A row of the instruction table. The stack effect counts entries, whatever their size, and is an
approximation: an invocation is taken to pop its receiver only and to push nothing. -/
structure Info where
  /-- The name of the operation in listings. -/
  mnemonic : String
  /-- The number of bytes that follow the opcode. -/
  operandBytes : Nat
  /-- The number of stack entries consumed. -/
  pops : Nat
  /-- The number of stack entries produced. -/
  pushes : Nat
deriving DecidableEq, Repr

/-- The number of opcodes. -/
def count : Nat := 203

/-- The byte of an opcode. -/
def toByte (op : Opcode) : UInt8 := UInt8.ofNat op.ctorIdx

/-- The opcode of a byte, if there is one. -/
def ofByte? (byte : UInt8) : Option Opcode :=
  if byte.toNat < count then some (Opcode.ofNat byte.toNat) else none

/-- The instruction table: mnemonic, operand bytes, stack entries consumed and produced. The
instructions of variable length have no operand bytes here. -/
def info : Opcode → Info
  | .nop => ⟨"nop", 0, 0, 0⟩
  | .aconstNull => ⟨"aconst_null", 0, 0, 1⟩
  | .iconstM1 => ⟨"iconst_m1", 0, 0, 1⟩
  | .iconst0 => ⟨"iconst_0", 0, 0, 1⟩
  | .iconst1 => ⟨"iconst_1", 0, 0, 1⟩
  | .iconst2 => ⟨"iconst_2", 0, 0, 1⟩
  | .iconst3 => ⟨"iconst_3", 0, 0, 1⟩
  | .iconst4 => ⟨"iconst_4", 0, 0, 1⟩
  | .iconst5 => ⟨"iconst_5", 0, 0, 1⟩
  | .lconst0 => ⟨"lconst_0", 0, 0, 1⟩
  | .lconst1 => ⟨"lconst_1", 0, 0, 1⟩
  | .fconst0 => ⟨"fconst_0", 0, 0, 1⟩
  | .fconst1 => ⟨"fconst_1", 0, 0, 1⟩
  | .fconst2 => ⟨"fconst_2", 0, 0, 1⟩
  | .dconst0 => ⟨"dconst_0", 0, 0, 1⟩
  | .dconst1 => ⟨"dconst_1", 0, 0, 1⟩
  | .bipush => ⟨"bipush", 1, 0, 1⟩
  | .sipush => ⟨"sipush", 2, 0, 1⟩
  | .ldc => ⟨"ldc", 1, 0, 1⟩
  | .ldcW => ⟨"ldc_w", 2, 0, 1⟩
  | .ldc2W => ⟨"ldc2_w", 2, 0, 1⟩
  | .iload => ⟨"iload", 1, 0, 1⟩
  | .lload => ⟨"lload", 1, 0, 1⟩
  | .fload => ⟨"fload", 1, 0, 1⟩
  | .dload => ⟨"dload", 1, 0, 1⟩
  | .aload => ⟨"aload", 1, 0, 1⟩
  | .iload0 => ⟨"iload_0", 0, 0, 1⟩
  | .iload1 => ⟨"iload_1", 0, 0, 1⟩
  | .iload2 => ⟨"iload_2", 0, 0, 1⟩
  | .iload3 => ⟨"iload_3", 0, 0, 1⟩
  | .lload0 => ⟨"lload_0", 0, 0, 1⟩
  | .lload1 => ⟨"lload_1", 0, 0, 1⟩
  | .lload2 => ⟨"lload_2", 0, 0, 1⟩
  | .lload3 => ⟨"lload_3", 0, 0, 1⟩
  | .fload0 => ⟨"fload_0", 0, 0, 1⟩
  | .fload1 => ⟨"fload_1", 0, 0, 1⟩
  | .fload2 => ⟨"fload_2", 0, 0, 1⟩
  | .fload3 => ⟨"fload_3", 0, 0, 1⟩
  | .dload0 => ⟨"dload_0", 0, 0, 1⟩
  | .dload1 => ⟨"dload_1", 0, 0, 1⟩
  | .dload2 => ⟨"dload_2", 0, 0, 1⟩
  | .dload3 => ⟨"dload_3", 0, 0, 1⟩
  | .aload0 => ⟨"aload_0", 0, 0, 1⟩
  | .aload1 => ⟨"aload_1", 0, 0, 1⟩
  | .aload2 => ⟨"aload_2", 0, 0, 1⟩
  | .aload3 => ⟨"aload_3", 0, 0, 1⟩
  | .iaload => ⟨"iaload", 0, 2, 1⟩
  | .laload => ⟨"laload", 0, 2, 1⟩
  | .faload => ⟨"faload", 0, 2, 1⟩
  | .daload => ⟨"daload", 0, 2, 1⟩
  | .aaload => ⟨"aaload", 0, 2, 1⟩
  | .baload => ⟨"baload", 0, 2, 1⟩
  | .caload => ⟨"caload", 0, 2, 1⟩
  | .saload => ⟨"saload", 0, 2, 1⟩
  | .istore => ⟨"istore", 1, 1, 0⟩
  | .lstore => ⟨"lstore", 1, 1, 0⟩
  | .fstore => ⟨"fstore", 1, 1, 0⟩
  | .dstore => ⟨"dstore", 1, 1, 0⟩
  | .astore => ⟨"astore", 1, 1, 0⟩
  | .istore0 => ⟨"istore_0", 0, 1, 0⟩
  | .istore1 => ⟨"istore_1", 0, 1, 0⟩
  | .istore2 => ⟨"istore_2", 0, 1, 0⟩
  | .istore3 => ⟨"istore_3", 0, 1, 0⟩
  | .lstore0 => ⟨"lstore_0", 0, 1, 0⟩
  | .lstore1 => ⟨"lstore_1", 0, 1, 0⟩
  | .lstore2 => ⟨"lstore_2", 0, 1, 0⟩
  | .lstore3 => ⟨"lstore_3", 0, 1, 0⟩
  | .fstore0 => ⟨"fstore_0", 0, 1, 0⟩
  | .fstore1 => ⟨"fstore_1", 0, 1, 0⟩
  | .fstore2 => ⟨"fstore_2", 0, 1, 0⟩
  | .fstore3 => ⟨"fstore_3", 0, 1, 0⟩
  | .dstore0 => ⟨"dstore_0", 0, 1, 0⟩
  | .dstore1 => ⟨"dstore_1", 0, 1, 0⟩
  | .dstore2 => ⟨"dstore_2", 0, 1, 0⟩
  | .dstore3 => ⟨"dstore_3", 0, 1, 0⟩
  | .astore0 => ⟨"astore_0", 0, 1, 0⟩
  | .astore1 => ⟨"astore_1", 0, 1, 0⟩
  | .astore2 => ⟨"astore_2", 0, 1, 0⟩
  | .astore3 => ⟨"astore_3", 0, 1, 0⟩
  | .iastore => ⟨"iastore", 0, 3, 0⟩
  | .lastore => ⟨"lastore", 0, 3, 0⟩
  | .fastore => ⟨"fastore", 0, 3, 0⟩
  | .dastore => ⟨"dastore", 0, 3, 0⟩
  | .aastore => ⟨"aastore", 0, 3, 0⟩
  | .bastore => ⟨"bastore", 0, 3, 0⟩
  | .castore => ⟨"castore", 0, 3, 0⟩
  | .sastore => ⟨"sastore", 0, 3, 0⟩
  | .pop => ⟨"pop", 0, 1, 0⟩
  | .pop2 => ⟨"pop2", 0, 2, 0⟩
  | .dup => ⟨"dup", 0, 1, 2⟩
  | .dupX1 => ⟨"dup_x1", 0, 2, 3⟩
  | .dupX2 => ⟨"dup_x2", 0, 3, 4⟩
  | .dup2 => ⟨"dup2", 0, 2, 4⟩
  | .dup2X1 => ⟨"dup2_x1", 0, 3, 5⟩
  | .dup2X2 => ⟨"dup2_x2", 0, 4, 6⟩
  | .swap => ⟨"swap", 0, 2, 2⟩
  | .iadd => ⟨"iadd", 0, 2, 1⟩
  | .ladd => ⟨"ladd", 0, 2, 1⟩
  | .fadd => ⟨"fadd", 0, 2, 1⟩
  | .dadd => ⟨"dadd", 0, 2, 1⟩
  | .isub => ⟨"isub", 0, 2, 1⟩
  | .lsub => ⟨"lsub", 0, 2, 1⟩
  | .fsub => ⟨"fsub", 0, 2, 1⟩
  | .dsub => ⟨"dsub", 0, 2, 1⟩
  | .imul => ⟨"imul", 0, 2, 1⟩
  | .lmul => ⟨"lmul", 0, 2, 1⟩
  | .fmul => ⟨"fmul", 0, 2, 1⟩
  | .dmul => ⟨"dmul", 0, 2, 1⟩
  | .idiv => ⟨"idiv", 0, 2, 1⟩
  | .ldiv => ⟨"ldiv", 0, 2, 1⟩
  | .fdiv => ⟨"fdiv", 0, 2, 1⟩
  | .ddiv => ⟨"ddiv", 0, 2, 1⟩
  | .irem => ⟨"irem", 0, 2, 1⟩
  | .lrem => ⟨"lrem", 0, 2, 1⟩
  | .frem => ⟨"frem", 0, 2, 1⟩
  | .drem => ⟨"drem", 0, 2, 1⟩
  | .ineg => ⟨"ineg", 0, 1, 1⟩
  | .lneg => ⟨"lneg", 0, 1, 1⟩
  | .fneg => ⟨"fneg", 0, 1, 1⟩
  | .dneg => ⟨"dneg", 0, 1, 1⟩
  | .ishl => ⟨"ishl", 0, 2, 1⟩
  | .lshl => ⟨"lshl", 0, 2, 1⟩
  | .ishr => ⟨"ishr", 0, 2, 1⟩
  | .lshr => ⟨"lshr", 0, 2, 1⟩
  | .iushr => ⟨"iushr", 0, 2, 1⟩
  | .lushr => ⟨"lushr", 0, 2, 1⟩
  | .iand => ⟨"iand", 0, 2, 1⟩
  | .land => ⟨"land", 0, 2, 1⟩
  | .ior => ⟨"ior", 0, 2, 1⟩
  | .lor => ⟨"lor", 0, 2, 1⟩
  | .ixor => ⟨"ixor", 0, 2, 1⟩
  | .lxor => ⟨"lxor", 0, 2, 1⟩
  | .iinc => ⟨"iinc", 2, 0, 0⟩
  | .i2l => ⟨"i2l", 0, 1, 1⟩
  | .i2f => ⟨"i2f", 0, 1, 1⟩
  | .i2d => ⟨"i2d", 0, 1, 1⟩
  | .l2i => ⟨"l2i", 0, 1, 1⟩
  | .l2f => ⟨"l2f", 0, 1, 1⟩
  | .l2d => ⟨"l2d", 0, 1, 1⟩
  | .f2i => ⟨"f2i", 0, 1, 1⟩
  | .f2l => ⟨"f2l", 0, 1, 1⟩
  | .f2d => ⟨"f2d", 0, 1, 1⟩
  | .d2i => ⟨"d2i", 0, 1, 1⟩
  | .d2l => ⟨"d2l", 0, 1, 1⟩
  | .d2f => ⟨"d2f", 0, 1, 1⟩
  | .i2b => ⟨"i2b", 0, 1, 1⟩
  | .i2c => ⟨"i2c", 0, 1, 1⟩
  | .i2s => ⟨"i2s", 0, 1, 1⟩
  | .lcmp => ⟨"lcmp", 0, 2, 1⟩
  | .fcmpl => ⟨"fcmpl", 0, 2, 1⟩
  | .fcmpg => ⟨"fcmpg", 0, 2, 1⟩
  | .dcmpl => ⟨"dcmpl", 0, 2, 1⟩
  | .dcmpg => ⟨"dcmpg", 0, 2, 1⟩
  | .ifeq => ⟨"ifeq", 2, 1, 0⟩
  | .ifne => ⟨"ifne", 2, 1, 0⟩
  | .iflt => ⟨"iflt", 2, 1, 0⟩
  | .ifge => ⟨"ifge", 2, 1, 0⟩
  | .ifgt => ⟨"ifgt", 2, 1, 0⟩
  | .ifle => ⟨"ifle", 2, 1, 0⟩
  | .ifIcmpeq => ⟨"if_icmpeq", 2, 2, 0⟩
  | .ifIcmpne => ⟨"if_icmpne", 2, 2, 0⟩
  | .ifIcmplt => ⟨"if_icmplt", 2, 2, 0⟩
  | .ifIcmpge => ⟨"if_icmpge", 2, 2, 0⟩
  | .ifIcmpgt => ⟨"if_icmpgt", 2, 2, 0⟩
  | .ifIcmple => ⟨"if_icmple", 2, 2, 0⟩
  | .ifAcmpeq => ⟨"if_acmpeq", 2, 2, 0⟩
  | .ifAcmpne => ⟨"if_acmpne", 2, 2, 0⟩
  | .goto => ⟨"goto", 2, 0, 0⟩
  | .jsr => ⟨"jsr", 2, 0, 1⟩
  | .ret => ⟨"ret", 1, 0, 0⟩
  | .tableswitch => ⟨"tableswitch", 0, 0, 0⟩
  | .lookupswitch => ⟨"lookupswitch", 0, 0, 0⟩
  | .ireturn => ⟨"ireturn", 0, 1, 0⟩
  | .lreturn => ⟨"lreturn", 0, 1, 0⟩
  | .freturn => ⟨"freturn", 0, 1, 0⟩
  | .dreturn => ⟨"dreturn", 0, 1, 0⟩
  | .areturn => ⟨"areturn", 0, 1, 0⟩
  | .returnVoid => ⟨"return", 0, 0, 0⟩
  | .getstatic => ⟨"getstatic", 2, 0, 1⟩
  | .putstatic => ⟨"putstatic", 2, 1, 0⟩
  | .getfield => ⟨"getfield", 2, 1, 1⟩
  | .putfield => ⟨"putfield", 2, 2, 0⟩
  | .invokevirtual => ⟨"invokevirtual", 2, 1, 0⟩
  | .invokespecial => ⟨"invokespecial", 2, 1, 0⟩
  | .invokestatic => ⟨"invokestatic", 2, 0, 0⟩
  | .invokeinterface => ⟨"invokeinterface", 4, 1, 0⟩
  | .invokedynamic => ⟨"invokedynamic", 4, 0, 0⟩
  | .newObject => ⟨"new", 2, 0, 1⟩
  | .newarray => ⟨"newarray", 1, 1, 1⟩
  | .anewarray => ⟨"anewarray", 2, 1, 1⟩
  | .arraylength => ⟨"arraylength", 0, 1, 1⟩
  | .athrow => ⟨"athrow", 0, 1, 1⟩
  | .checkcast => ⟨"checkcast", 2, 1, 1⟩
  | .instanceof => ⟨"instanceof", 2, 1, 1⟩
  | .monitorenter => ⟨"monitorenter", 0, 1, 0⟩
  | .monitorexit => ⟨"monitorexit", 0, 1, 0⟩
  | .wide => ⟨"wide", 0, 0, 0⟩
  | .multianewarray => ⟨"multianewarray", 3, 1, 1⟩
  | .ifnull => ⟨"ifnull", 2, 1, 0⟩
  | .ifnonnull => ⟨"ifnonnull", 2, 1, 0⟩
  | .gotoW => ⟨"goto_w", 4, 0, 0⟩
  | .jsrW => ⟨"jsr_w", 4, 0, 1⟩
  | .breakpoint => ⟨"breakpoint", 0, 0, 0⟩

/-- The name of the operation in listings. -/
def mnemonic (op : Opcode) : String := op.info.mnemonic

/-- The number of bytes that follow the opcode. -/
def operandBytes (op : Opcode) : Nat := op.info.operandBytes

/-- The number of stack entries that the operation consumes. -/
def pops (op : Opcode) : Nat := op.info.pops

/-- The number of stack entries that the operation produces. -/
def pushes (op : Opcode) : Nat := op.info.pushes

/-- Whether the table gives the length of the instruction. It does not for the two switches and for
the modifier `wide`. -/
def isSupported : Opcode → Bool
  | .tableswitch | .lookupswitch | .wide => false
  | _ => true

/-- How many of the first operand bytes are an index into the constant pool. -/
def constantIndexBytes : Opcode → Nat
  | .ldc => 1
  | .ldcW | .ldc2W | .getstatic | .putstatic | .getfield | .putfield | .invokevirtual
  | .invokespecial | .invokestatic | .invokeinterface | .invokedynamic | .newObject | .anewarray
  | .checkcast | .instanceof | .multianewarray => 2
  | _ => 0

/-- Every opcode is found under its byte. -/
@[simp]
theorem ofByte?_toByte (op : Opcode) : ofByte? op.toByte = some op := by
  cases op <;> rfl

/-- The operand bytes of an instruction include its index into the constant pool. -/
theorem constantIndexBytes_le (op : Opcode) : op.constantIndexBytes ≤ op.operandBytes := by
  cases op <;> decide

end Opcode

end JavaClass
