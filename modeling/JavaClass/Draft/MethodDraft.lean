import JavaClass.BasicBlock
import JavaClass.Draft.ClassDraft

/-!
# Drafts of methods

A method that is being put together. It holds the draft of its class until it is left or dropped.
Instructions go to the end of the current block; when the method is left, its blocks are laid out in
the order in which they were created, and the depth of the operand stack is worked out.

- `MethodDraft.enter`, `MethodDraft.enterConstructor`: a new method.
- `MethodDraft.createBlock`, `MethodDraft.setInsertionPoint?`, `MethodDraft.pushInstruction`: the
  parts of the body.
- `MethodDraft.body`: the body that the blocks make up.
- `MethodDraft.leave`, `MethodDraft.drop`: back to the class, with and without the method.
-/

namespace JavaClass

/-- A block of a method, by its number in the order of creation. -/
structure InsertionPoint where
  /-- The number of the block. -/
  block : Nat
deriving DecidableEq, Repr

/-- The message for an insertion point of some other method. -/
def InsertionPoint.foreignMessage (point : InsertionPoint) : String :=
  s!"insertion point InsertionPoint({point.block}) does not belong to this method"

/-- A method that is being put together. -/
structure MethodDraft where
  /-- The class that the method is for. -/
  owner : ClassDraft
  /-- The method, without its body. -/
  method : Method
  /-- The index of the name of the attribute that holds the body. -/
  codeName : ConstantIndex
  /-- The number of local variables. -/
  maxLocals : UInt16
  /-- The blocks, in the order of creation. -/
  blocks : Array BasicBlock
  /-- The number of the block that instructions go to. -/
  current : Nat
  /-- Instructions go to one of the blocks. -/
  current_lt : current < blocks.size

namespace MethodDraft

/-- The operation that adds what a method with a name and a type starts with. The type must be that
of a method. The method has a variable for each argument and one for the object, whether it has one
or not. -/
def entering (name : String) (type : JavaType) (flags : AccessFlags .method) :
    PoolDraft.Adding (Method × ConstantIndex × UInt16) := do
  PoolDraft.expectMethod type
  let locals := 1 + type.arguments.length
  if locals > 0xFFFF then throw (.tooManyLocals locals)
  let name ← PoolDraft.addUtf8 name
  let descriptor ← PoolDraft.addUtf8 type.render
  let codeName ← PoolDraft.addUtf8 Attribute.codeName
  return ({ flags, name, descriptor }, codeName, UInt16.ofNat locals)

/-- Starts a method, which has one block without instructions. If that fails, the class is given
back with the constants that were added. -/
def enter (owner : ClassDraft) (name : String) (type : JavaType) (flags : AccessFlags .method) :
    Except (Error × ClassDraft) MethodDraft :=
  match owner.run (ClassDraft.adding (entering name type flags)) with
  | (.error cause, owner) => .error (cause, owner)
  | (.ok (method, codeName, maxLocals), owner) =>
    .ok { owner, method, codeName, maxLocals, blocks := #[{}], current := 0, current_lt := by simp }

/-- The name of constructors. -/
def constructorName : String := "<init>"

/-- Starts a constructor. -/
def enterConstructor (owner : ClassDraft) (type : JavaType) (flags : AccessFlags .method) :
    Except (Error × ClassDraft) MethodDraft :=
  enter owner constructorName type flags

/-- Does an operation on the constants of the class. -/
def adding {α : Type} (draft : MethodDraft) (operation : PoolDraft.Adding α) :
    Except Error α × MethodDraft :=
  let ⟨owner, method, codeName, maxLocals, blocks, current, current_lt⟩ := draft
  let (result, owner) := owner.run (ClassDraft.adding operation)
  (result, ⟨owner, method, codeName, maxLocals, blocks, current, current_lt⟩)

/-- The block that instructions go to. -/
def insertionPoint (draft : MethodDraft) : InsertionPoint := ⟨draft.current⟩

/-- Adds an empty block after all others. Instructions go where they went before. -/
def createBlock (draft : MethodDraft) : InsertionPoint × MethodDraft :=
  (⟨draft.blocks.size⟩,
    { draft with
      blocks := draft.blocks.push {}
      current_lt := by have := draft.current_lt; simp; omega })

/-- Lets instructions go to a block, if the method has it. -/
def setInsertionPoint? (draft : MethodDraft) (point : InsertionPoint) : Option MethodDraft :=
  if h : point.block < draft.blocks.size then
    some { draft with current := point.block, current_lt := h }
  else none

/-- Sets the number of local variables. -/
def setLocalsLimit (draft : MethodDraft) (maxLocals : UInt16) : MethodDraft :=
  { draft with maxLocals }

/-- Adds an instruction at the end of the current block. -/
def pushInstruction (draft : MethodDraft) (instruction : Instruction) : MethodDraft :=
  { draft with
    blocks := draft.blocks.modify draft.current (·.push instruction)
    current_lt := by simpa using draft.current_lt }

/-- Makes an instruction and adds it at the end of the current block. -/
def makeInstruction (draft : MethodDraft) (opcode : Opcode) (operands : Bytes) :
    Except Error MethodDraft :=
  (Instruction.make opcode operands).map draft.pushInstruction

/-- The instructions of all blocks, in the order in which the blocks were created. -/
def instructions (draft : MethodDraft) : List Instruction :=
  draft.blocks.toList.flatMap BasicBlock.toList

/-- The body that the blocks make up. The depth of the operand stack and the length of the code are
limited, and checked in this order. -/
def body (draft : MethodDraft) : Except Error MethodBody := do
  let maxStack := BasicBlock.maxStackDepth draft.blocks.toList
  if maxStack > 0xFFFF then throw (.stackTooDeep maxStack)
  let instructions := OffsetArray.ofList draft.instructions
  if instructions.totalWidth > MethodBody.maxCodeLength then
    throw (.codeTooLong instructions.totalWidth)
  return { name := draft.codeName, maxStack := UInt16.ofNat maxStack,
           maxLocals := draft.maxLocals, instructions, handlers := [] }

/-- The class without the method. The constants that were added for it stay. -/
def drop (draft : MethodDraft) : ClassDraft := draft.owner

/-- The class with the method. Native and abstract methods get no body; it is noted if instructions
were given for one. A method whose body is too large is dropped. -/
def leave (draft : MethodDraft) : Except Error Unit × ClassDraft :=
  let owner := draft.owner
  match draft.body with
  | .error cause => (.error cause, owner)
  | .ok body =>
    -- A body that is too large is an error even where none is kept.
    let bodiless := draft.method.flags.intersects .bodiless
    let method := if bodiless then draft.method
      else { draft.method with attributes := draft.method.attributes ++ [.code body []] }
    let warnings := if bodiless ∧ 0 < body.instructions.size then
        .droppedInstructions body.instructions.size :: owner.warnings
      else owner.warnings
    let file := { owner.file with methods := owner.file.methods ++ [method] }
    (.ok (), { owner with file, warnings })

end MethodDraft

end JavaClass
