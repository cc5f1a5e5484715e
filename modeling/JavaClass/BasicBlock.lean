import JavaClass.Instruction

/-!
# Basic blocks

A basic block is a run of instructions. The blocks of a method are laid out one after another, so
offsets in a block count from the start of that block.

- `BasicBlock.maxStackDepth`: how deep the operand stack gets when blocks run one after another.
-/

namespace JavaClass

/-- A run of instructions. -/
structure BasicBlock where
  /-- The instructions, in order. -/
  instructions : OffsetArray Instruction := .empty
deriving DecidableEq, Repr

namespace BasicBlock

instance : Inhabited BasicBlock := ⟨{}⟩

/-- A block takes up as many places as its instructions. -/
instance : HasWidth BasicBlock := ⟨fun block => block.instructions.totalWidth⟩

/-- Adds an instruction at the end. -/
def push (block : BasicBlock) (instruction : Instruction) : BasicBlock :=
  ⟨block.instructions.push instruction⟩

/-- The number of instructions. -/
def length (block : BasicBlock) : Nat := block.instructions.size

/-- Whether there are no instructions. -/
def isEmpty (block : BasicBlock) : Bool := block.instructions.isEmpty

/-- The instructions, in order. -/
def toList (block : BasicBlock) : List Instruction := block.instructions.elements

/-- A running account of the operand stack. The depth is relative to the start and can be negative,
as an invocation is taken to push nothing. -/
structure StackAccount where
  /-- The depth after the instructions so far. -/
  depth : Int := 0
  /-- The greatest depth so far. -/
  peak : Int := 0
deriving DecidableEq, Repr

/-- The account after one more instruction. -/
def StackAccount.after (account : StackAccount) (instruction : Instruction) : StackAccount :=
  let depth := account.depth - instruction.pops + instruction.pushes
  { depth, peak := max account.peak depth }

/-- How deep the operand stack gets when blocks run one after another. Branches are not followed. -/
def maxStackDepth (blocks : List BasicBlock) : Nat :=
  -- The peak starts at zero, so no depth is lost by leaving out the sign.
  let account := (blocks.flatMap toList).foldl StackAccount.after {}
  account.peak.toNat

end BasicBlock

end JavaClass
