import JavaClass.Proofs.Draft.ClassDraft
import JavaClass.Proofs.Writing.Refusing
import Mathlib.Algebra.Ring.Int.Defs
import Mathlib.Data.List.Infix

/-!
# Methods are laid out by the creation of their blocks

Instructions can go to the blocks of a method in any order, and blocks can be created and returned
to at any time. When the method is left, its code is what went to the first block, then what went to
the second, and so on. How deep the operand stack gets depends on that code alone, and not on how it
is cut into blocks.

- `BasicBlock.peakDepth`: the greatest depth of the operand stack before, between and after some
  instructions, and `BasicBlock.maxStackDepth_eq`: that is what is worked out from blocks.
- `MethodDraft.Emission`: the instructions that calls give, with the blocks that they go to.
- `MethodDraft.Holds`: a draft holds what was given, kept by every call.
- `MethodDraft.leave_spec`: how any method is left, told by the calls that were made on it.
-/

namespace JavaClass

/-! ## The operand stack -/

namespace BasicBlock

/-- How many more entries some instructions produce than they consume. -/
def stackEffect (instructions : List Instruction) : Int :=
  (instructions.map fun instruction => (instruction.pushes : Int) - instruction.pops).sum

/-- The greatest effect of any front of some instructions, the empty one included. -/
def peakDepth (instructions : List Instruction) : Nat :=
  ((instructions.inits.map stackEffect).foldl max 0).toNat

/-- The running account of some instructions has their effect, and the greatest effect of any of
their fronts. -/
theorem foldl_after_eq (instructions : List Instruction) :
    instructions.foldl StackAccount.after {} =
      { depth := stackEffect instructions
        peak := (instructions.inits.map stackEffect).foldl max 0 } := by
  -- One more instruction gives one more front, which is the longest.
  induction instructions using List.reverseRecOn with
  | nil => rfl
  | append_singleton instructions last ih =>
    have heffect : stackEffect (instructions ++ [last]) =
        stackEffect instructions - last.pops + last.pushes := by
      simp only [stackEffect, List.map_append, List.map_singleton, List.sum_append,
        List.sum_singleton]
      omega
    have hinits : (instructions ++ [last]).inits =
        instructions.inits ++ [instructions ++ [last]] := by
      simp [List.inits_append]
    rw [List.foldl_append, ih, hinits, List.map_append, List.foldl_append]
    simp [StackAccount.after, heffect]

/-- The depth that is worked out from blocks is that of their instructions, however these are cut
into blocks. -/
theorem maxStackDepth_eq (blocks : List BasicBlock) :
    maxStackDepth blocks = peakDepth (blocks.flatMap toList) := by
  rw [maxStackDepth, foldl_after_eq]
  rfl

end BasicBlock

/-! ## Methods without a body -/

namespace AccessFlags

/-- The flag of methods that are implemented elsewhere. -/
def native : AccessFlags .method := ⟨0x0100⟩

/-- The flag of methods that are left to subclasses. -/
def abstract : AccessFlags .method := ⟨0x0400⟩

/-- A method has no body exactly if it is native or abstract. -/
theorem intersects_bodiless_iff (flags : AccessFlags .method) :
    flags.intersects .bodiless ↔ flags.intersects .native ∨ flags.intersects .abstract := by
  have hsplit : flags.bits &&& 0x0500 = (flags.bits &&& 0x0100) ||| (flags.bits &&& 0x0400) := by
    simp only [← UInt16.toBitVec_inj, UInt16.toBitVec_or, UInt16.toBitVec_and,
      ← BitVec.and_or_distrib_left]
    rfl
  have hiff (other : AccessFlags .method) :
      flags.intersects other ↔ flags.bits &&& other.bits ≠ 0 := decide_eq_true_iff
  rw [hiff, hiff, hiff, bodiless, native, abstract, hsplit, ne_eq, UInt16.or_eq_zero_iff,
    not_and_or]

end AccessFlags

/-! ## What calls emit -/

namespace MethodDraft

/-- What was said about the body of a method: how many blocks there are, which of them instructions
go to, and the instructions with the blocks that they went to, in the order in which they were
given. -/
structure Emission where
  /-- The number of blocks. -/
  blocks : Nat := 1
  /-- The number of the block that instructions go to. -/
  current : Nat := 0
  /-- The instructions, each behind the number of its block. -/
  emitted : List (Nat × Instruction) := []

namespace Emission

/-- One more instruction goes to the current block. -/
def emit (emission : Emission) (instruction : Instruction) : Emission :=
  { emission with emitted := emission.emitted ++ [(emission.current, instruction)] }

/-- What was said after one more call. A block that does not exist is not gone to, and an
instruction that cannot be made is not given. -/
def after (emission : Emission) : Call → Emission
  | .createBlock => { emission with blocks := emission.blocks + 1 }
  | .setInsertionPoint point =>
    if point.block < emission.blocks then { emission with current := point.block } else emission
  | .pushInstruction instruction => emission.emit instruction
  | .makeInstruction opcode operands =>
    match Instruction.make opcode operands with
    | .ok instruction => emission.emit instruction
    | .error _ => emission
  | .add _ | .setLocalsLimit _ => emission

/-- What some calls say. -/
def of (calls : List Call) : Emission := calls.foldl after {}

/-- The instructions that went to a block, in the order in which they were given. -/
def block (emission : Emission) (number : Nat) : List Instruction :=
  (emission.emitted.filter (·.1 = number)).map (·.2)

/-- The instructions of all blocks, the blocks in the order of their creation. -/
def code (emission : Emission) : List Instruction :=
  (List.range emission.blocks).flatMap emission.block

theorem block_emit (emission : Emission) (instruction : Instruction) (number : Nat) :
    (emission.emit instruction).block number =
      emission.block number ++ if emission.current = number then [instruction] else [] := by
  by_cases hcurrent : emission.current = number <;> simp [block, emit, hcurrent]

end Emission

/-- A draft holds what was said about its body, block by block. Nothing went to blocks that do not
exist. -/
structure Holds (draft : MethodDraft) (emission : Emission) : Prop where
  size : draft.blocks.size = emission.blocks
  current : draft.current = emission.current
  block : ∀ number, draft.blocks[number]?.elim [] BasicBlock.toList = emission.block number

namespace Holds

variable {draft : MethodDraft} {emission : Emission}

/-- The code of a draft is what was said. -/
theorem instructions_eq (h : draft.Holds emission) : draft.instructions = emission.code := by
  have hblocks : draft.blocks.toList.map BasicBlock.toList =
      (List.range emission.blocks).map emission.block := by
    apply List.ext_getElem
    · simp [h.size]
    · intro number hnumber _
      have hlt : number < draft.blocks.size := by simpa using hnumber
      simp [← h.block number, hlt]
  rw [instructions, Emission.code, List.flatMap_def, List.flatMap_def, hblocks]

/-- A new block is empty, and nothing went to it before. -/
theorem createBlock (h : draft.Holds emission) :
    draft.createBlock.2.Holds { emission with blocks := emission.blocks + 1 } where
  size := by
    show (draft.blocks.push {}).size = emission.blocks + 1
    rw [Array.size_push, h.size]
  current := h.current
  block number := by
    show (draft.blocks.push {})[number]?.elim [] BasicBlock.toList = emission.block number
    rw [Array.getElem?_push, ← h.block number]
    split
    · next hnew =>
      rw [hnew, Array.getElem?_eq_none (Nat.le_refl _)]
      rfl
    · rfl

/-- An instruction goes to the end of the current block. -/
theorem pushInstruction (h : draft.Holds emission) (instruction : Instruction) :
    (draft.pushInstruction instruction).Holds (emission.emit instruction) where
  size := by
    show (draft.blocks.modify draft.current (·.push instruction)).size = emission.blocks
    rw [Array.size_modify, h.size]
  current := h.current
  block number := by
    show (draft.blocks.modify draft.current (·.push instruction))[number]?.elim []
      BasicBlock.toList = _
    rw [Array.getElem?_modify, Emission.block_emit, ← h.block number, ← h.current]
    split
    · next hcurrent =>
      rw [← hcurrent, Array.getElem?_eq_getElem draft.current_lt]
      exact OffsetArray.elements_push ..
    · rw [List.append_nil]

/-- Every call leaves a draft that holds what was said. -/
theorem perform (h : draft.Holds emission) (call : Call) :
    (draft.perform call).Holds (emission.after call) := by
  cases call with
  | add addition => exact ⟨h.size, h.current, h.block⟩
  | setLocalsLimit maxLocals => exact ⟨h.size, h.current, h.block⟩
  | createBlock => exact h.createBlock
  | pushInstruction instruction => exact h.pushInstruction instruction
  | makeInstruction opcode operands =>
    rw [MethodDraft.perform, makeInstruction, Emission.after]
    cases Instruction.make opcode operands with
    | ok instruction => exact h.pushInstruction instruction
    | error cause => exact h
  | setInsertionPoint point =>
    rw [MethodDraft.perform, setInsertionPoint?, Emission.after]
    by_cases hpoint : point.block < draft.blocks.size
    · rw [dif_pos hpoint, if_pos (h.size ▸ hpoint)]
      exact ⟨h.size, rfl, h.block⟩
    · rw [dif_neg hpoint, if_neg (h.size ▸ hpoint)]
      exact h

/-- A draft holds what all calls on it said. -/
theorem performAll (h : draft.Holds emission) (calls : List Call) :
    (draft.performAll calls).Holds (calls.foldl Emission.after emission) := by
  induction calls generalizing draft emission with
  | nil => exact h
  | cons call calls ih => exact ih (h.perform call)

end Holds

/-! ## What calls leave alone -/

/-- The limit on local variables that a call sets. -/
@[simp]
def Call.localsLimit? : Call → Option UInt16
  | .setLocalsLimit maxLocals => some maxLocals
  | _ => none

/-- A draft belongs to a class file and a method that no call on it changes. -/
structure Concerns (draft : MethodDraft) (owner : ClassDraft) (method : Method) : Prop where
  file : draft.owner.file = owner.file
  warnings : draft.owner.warnings = owner.warnings
  method : draft.method = method

theorem Concerns.perform {draft : MethodDraft} {owner : ClassDraft} {method : Method}
    (h : draft.Concerns owner method) (call : Call) :
    (draft.perform call).Concerns owner method := by
  rcases draft.perform_cases call with ⟨addition, heq⟩ | ⟨howner, hmethod, -⟩
  · rw [heq]
    exact ⟨h.file, h.warnings, h.method⟩
  · exact ⟨howner ▸ h.file, howner ▸ h.warnings, hmethod.trans h.method⟩

/-- The limit on local variables is the one that a call sets, if it sets any. -/
theorem maxLocals_perform (draft : MethodDraft) (call : Call) :
    (draft.perform call).maxLocals = call.localsLimit?.getD draft.maxLocals := by
  cases call with
  | add | createBlock | setLocalsLimit | pushInstruction => rfl
  | setInsertionPoint point =>
    rw [MethodDraft.perform, setInsertionPoint?]
    split <;> rfl
  | makeInstruction opcode operands =>
    rw [MethodDraft.perform, makeInstruction]
    cases Instruction.make opcode operands <;> rfl

/-- The last limit on local variables counts. -/
theorem maxLocals_performAll (draft : MethodDraft) (calls : List Call) :
    (draft.performAll calls).maxLocals =
      (calls.filterMap Call.localsLimit?).getLast?.getD draft.maxLocals := by
  induction calls generalizing draft with
  | nil => rfl
  | cons call calls ih =>
    rw [performAll, List.foldl_cons, ← performAll, ih, maxLocals_perform]
    cases hlimit : call.localsLimit? with
    | none => rw [List.filterMap_cons_none hlimit, Option.getD_none]
    | some limit =>
      rw [List.filterMap_cons_some hlimit, List.getLast?_cons, Option.getD_some, Option.getD_some]

/-- If two operations one after the other succeed, so does each of them. -/
theorem exists_of_run_bind {α β : Type} {draft next : PoolDraft} {first : PoolDraft.Adding α}
    {second : α → PoolDraft.Adding β} {value : β}
    (h : draft.run (first >>= second) = (.ok value, next)) :
    ∃ found middle, draft.run first = (.ok found, middle) ∧
      middle.run (second found) = (.ok value, next) := by
  rw [PoolDraft.run_bind] at h
  rcases hrun : draft.run first with ⟨cause | found, middle⟩
  · rw [hrun] at h
    cases h
  · rw [hrun] at h
    exact ⟨found, middle, rfl, h⟩

/-- What is added for a method has its flags and no body, and a variable for the object and for each
argument. -/
theorem of_run_entering {name : String} {type : JavaType} {flags : AccessFlags .method}
    {constants next : PoolDraft} {method : Method} {codeName : ConstantIndex} {locals : UInt16}
    (h : constants.run (entering name type flags) = (.ok (method, codeName, locals), next)) :
    method.flags = flags ∧ method.attributes = [] ∧ locals.toNat = 1 + type.arguments.length := by
  obtain ⟨-, _, -, h⟩ := exists_of_run_bind h
  dsimp only at h
  split at h
  · obtain ⟨_, _, hthrow, -⟩ := exists_of_run_bind h
    cases hthrow
  · next hfew =>
    obtain ⟨nameIndex, _, -, h⟩ := exists_of_run_bind h
    obtain ⟨descriptor, _, -, h⟩ := exists_of_run_bind h
    obtain ⟨codeName, _, -, h⟩ := exists_of_run_bind h
    cases h
    exact ⟨rfl, rfl, UInt16.toNat_ofNat_of_lt (by rw [UInt16.size]; omega)⟩

/-- A method that was entered has its flags, one block without instructions, and a variable for the
object and for each argument. -/
theorem of_enter {owner : ClassDraft} {draft : MethodDraft} {name : String} {type : JavaType}
    {flags : AccessFlags .method} (h : enter owner name type flags = .ok draft) :
    draft.Holds {} ∧ draft.Concerns owner draft.method ∧ draft.method.flags = flags ∧
      draft.method.attributes = [] ∧ draft.maxLocals.toNat = 1 + type.arguments.length := by
  rw [enter, ClassDraft.run_adding] at h
  rcases hrun : owner.constants.run (entering name type flags) with
    ⟨cause | ⟨method, codeName, maxLocals⟩, constants⟩
  · rw [hrun] at h
    cases h
  · rw [hrun] at h
    cases h
    obtain ⟨hflags, hattributes, hlocals⟩ := of_run_entering hrun
    refine ⟨⟨rfl, rfl, fun number => ?_⟩, ⟨rfl, rfl, rfl⟩, hflags, hattributes, hlocals⟩
    -- Whether there is such a block or not, it has no instructions.
    cases number <;> rfl

/-- A method can be entered where there is room for its name, its descriptor and the name of its
body. -/
theorem exists_enter {owner : ClassDraft} (h : owner.constants.Consistent) (name : String)
    (type : JavaType) (flags : AccessFlags .method) (htype : type.isMethod)
    (hfew : 1 + type.arguments.length ≤ 0xFFFF)
    (room : owner.constants.pool.next + 3 ≤ ConstantPool.limit) :
    ∃ draft, enter owner name type flags = .ok draft := by
  -- Each of the three texts takes up at most one slot.
  obtain ⟨nameIndex, named, hname, hnamed, hnext⟩ :=
    PoolDraft.exists_addUtf8 h name (by omega)
  obtain ⟨descriptor, typed, hdescriptor, htyped, hnext'⟩ :=
    PoolDraft.exists_addUtf8 hnamed type.render (by omega)
  obtain ⟨codeName, constants, hcodeName, -, -⟩ :=
    PoolDraft.exists_addUtf8 htyped Attribute.codeName (by omega)
  have hrun : owner.constants.run (entering name type flags) =
      (.ok ({ flags, name := nameIndex, descriptor }, codeName,
        UInt16.ofNat (1 + type.arguments.length)), constants) := by
    rw [entering, PoolDraft.expectMethod, if_pos htype]
    simp only [PoolDraft.run_bind, PoolDraft.run_liftM, Nat.not_lt_of_le hfew, hname, hdescriptor,
      hcodeName, PoolDraft.run_pure, if_false]
  rw [enter, ClassDraft.run_adding, hrun]
  exact ⟨_, rfl⟩

/-! ## Leaving -/

/-- Whether code can be that of a method. A stack that gets too deep is refused first, then code
that gets too long. -/
def checkLimits (code : List Instruction) : Except Error Unit :=
  if 0xFFFF < BasicBlock.peakDepth code then .error (.stackTooDeep (BasicBlock.peakDepth code))
  else if 0xFFFF < (code.map Instruction.byteLength).sum then
    .error (.codeTooLong (code.map Instruction.byteLength).sum)
  else .ok ()

/-- A method body holds some code, each instruction behind the bytes of those before it, and has
enough room on the stack for it and for its local variables. -/
structure IsBodyOf (body : MethodBody) (code : List Instruction) (locals : Nat) : Prop where
  maxStack : body.maxStack.toNat = BasicBlock.peakDepth code
  maxLocals : body.maxLocals.toNat = locals
  entries : ∀ number : Nat, body.instructions.toList[number]? =
    code[number]?.map fun instruction =>
      (((code.take number).map Instruction.byteLength).sum, instruction)
  handlers : body.handlers = []

/-- The body of a draft is made up of what was said about it. -/
theorem Holds.body_eq {draft : MethodDraft} {emission : Emission} (h : draft.Holds emission) :
    draft.body = (checkLimits emission.code).map fun _ =>
      { name := draft.codeName
        maxStack := UInt16.ofNat (BasicBlock.peakDepth emission.code)
        maxLocals := draft.maxLocals
        instructions := .ofList emission.code
        handlers := [] } := by
  have hdepth : BasicBlock.maxStackDepth draft.blocks.toList =
      BasicBlock.peakDepth emission.code := by
    rw [BasicBlock.maxStackDepth_eq, ← h.instructions_eq, instructions]
  have hlength : (OffsetArray.ofList emission.code).totalWidth =
      (emission.code.map Instruction.byteLength).sum := by
    rw [(OffsetArray.filledFrom_ofList _).totalWidth_eq, OffsetArray.elements_ofList]
    rfl
  rw [body, checkLimits, hdepth, h.instructions_eq]
  dsimp only
  rw [hlength, MethodBody.maxCodeLength]
  split
  · rfl
  · split <;> rfl

/-- A body that is made up of what was said holds the code, with the limits that were worked out and
set. -/
theorem Holds.isBodyOf {draft : MethodDraft} {emission : Emission} (h : draft.Holds emission)
    {body : MethodBody} (hbody : draft.body = .ok body) :
    checkLimits emission.code = .ok () ∧ IsBodyOf body emission.code draft.maxLocals.toNat := by
  rw [h.body_eq, map_eq_ok] at hbody
  obtain ⟨_, hcheck, rfl⟩ := hbody
  -- The depth was not refused, so it is not cut off when it is put into two bytes.
  have hdepth : BasicBlock.peakDepth emission.code ≤ 0xFFFF := by
    by_contra hdeep
    rw [checkLimits, if_pos (Nat.lt_of_not_le hdeep)] at hcheck
    cases hcheck
  refine ⟨hcheck, UInt16.toNat_ofNat_of_lt (Nat.lt_succ_of_le hdepth), rfl, fun number => ?_, rfl⟩
  show (OffsetArray.ofList emission.code).toList[number]? = _
  rw [(OffsetArray.filledFrom_ofList _).getElem?_toList, OffsetArray.elements_ofList]
  simp only [Nat.zero_add]
  rfl

/-- How a method that was entered is left when some calls were made on it: the answer, and the class
with the method. -/
structure IsLeft (owner : ClassDraft) (type : JavaType) (flags : AccessFlags .method)
    (calls : List Call) (left : Except Error Unit × ClassDraft) : Prop where
  /-- The method is refused exactly if its code is. -/
  answer : left.1 = checkLimits (Emission.of calls).code
  /-- The depth is that of the code, however the code is cut into blocks. -/
  depth : ∀ blocks : List BasicBlock, blocks.flatMap BasicBlock.toList = (Emission.of calls).code →
    BasicBlock.maxStackDepth blocks = BasicBlock.peakDepth (Emission.of calls).code
  /-- A method that is refused leaves nothing in the class file. -/
  refused : left.1 ≠ .ok () → left.2.file = owner.file ∧ left.2.warnings = owner.warnings
  /-- Any other method is the last one of the class file, which is otherwise what it was. The method
  has a body, unless it is native or abstract. -/
  accepted : left.1 = .ok () → ∃ method : Method,
    left.2.file = { owner.file with methods := owner.file.methods ++ [method] } ∧
      method.flags = flags ∧
      if flags.intersects .native ∨ flags.intersects .abstract then method.attributes = []
      else ∃ body, method.attributes = [.code body []] ∧ IsBodyOf body (Emission.of calls).code
        (((calls.filterMap Call.localsLimit?).getLast?.map UInt16.toNat).getD
          (1 + type.arguments.length))

/-- A method with a body as its last attribute, unless it can have none. -/
def withBody (method : Method) (body : MethodBody) : Method :=
  if method.flags.intersects .bodiless then method
  else { method with attributes := method.attributes ++ [.code body []] }

@[simp]
theorem flags_withBody (method : Method) (body : MethodBody) :
    (withBody method body).flags = method.flags := by
  rw [withBody]
  split <;> rfl

/-- A method without attributes gets at most its body. -/
theorem attributes_withBody {method : Method} (h : method.attributes = []) (body : MethodBody) :
    (withBody method body).attributes =
      if method.flags.intersects .native ∨ method.flags.intersects .abstract then []
      else [.code body []] := by
  rw [withBody]
  simp only [AccessFlags.intersects_bodiless_iff]
  split
  · exact h
  · rw [h, List.nil_append]

/-- A method whose body is refused leaves its class as it is. -/
theorem leave_of_error {draft : MethodDraft} {cause : Error} (h : draft.body = .error cause) :
    draft.leave = (.error cause, draft.owner) := by
  rw [leave, h]

/-- Any other method is added to its class. -/
theorem leave_of_ok {draft : MethodDraft} {body : MethodBody} (h : draft.body = .ok body) :
    draft.leave.1 = .ok () ∧ draft.leave.2.file =
      { draft.owner.file with
        methods := draft.owner.file.methods ++ [withBody draft.method body] } := by
  rw [leave, h]
  exact ⟨rfl, rfl⟩

/-- However a method is put together, and in whatever order its blocks are filled, it is left as the
calls on it say: its code is what went to the blocks, in the order of their creation. -/
theorem leave_spec {owner : ClassDraft} {draft : MethodDraft} {name : String} {type : JavaType}
    {flags : AccessFlags .method} (hentered : enter owner name type flags = .ok draft)
    (calls : List Call) :
    IsLeft owner type flags calls (draft.performAll calls).leave := by
  obtain ⟨hholds, hconcerns, hflags, hattributes, hlocals⟩ := of_enter hentered
  have hcode : (draft.performAll calls).Holds (Emission.of calls) := hholds.performAll calls
  obtain ⟨hfile, hwarnings, hmethod⟩ :=
    performAll_induction (motive := fun later => later.Concerns owner draft.method)
      (fun _ call h => h.perform call) hconcerns calls
  have hdepth (blocks : List BasicBlock)
      (hblocks : blocks.flatMap BasicBlock.toList = (Emission.of calls).code) :
      BasicBlock.maxStackDepth blocks = BasicBlock.peakDepth (Emission.of calls).code :=
    hblocks ▸ BasicBlock.maxStackDepth_eq blocks
  cases hbody : (draft.performAll calls).body with
  | error cause =>
    rw [leave_of_error hbody]
    refine ⟨?_, hdepth, fun _ => ⟨hfile, hwarnings⟩, fun hok => nomatch hok⟩
    exact (map_eq_error.mp (hcode.body_eq ▸ hbody)).symm
  | ok body =>
    obtain ⟨hcheck, hisBody⟩ := hcode.isBodyOf hbody
    obtain ⟨hok, hleft⟩ := leave_of_ok hbody
    rw [maxLocals_performAll, ← Option.getD_map UInt16.toNat, hlocals] at hisBody
    refine ⟨hok.trans hcheck.symm, hdepth, fun hfailed => absurd hok hfailed, fun _ => ?_⟩
    refine ⟨withBody draft.method body, by rw [hleft, hfile, hmethod], ?_, ?_⟩
    · rw [flags_withBody, hflags]
    · rw [attributes_withBody hattributes, hflags]
      split
      · rfl
      · exact ⟨body, rfl, hisBody⟩

/-- Calls that end a method in a second block before its first block gets an instruction, which is
refused once for lack of an operand. -/
def fillingBackwards : List Call :=
  [.createBlock, .setInsertionPoint ⟨1⟩, .makeInstruction .ireturn [], .setInsertionPoint ⟨0⟩,
    .makeInstruction .bipush [], .makeInstruction .bipush [42]]

/-- For instance, a method whose blocks are filled backwards yields 42: the instruction that was
given last comes first. -/
theorem leave_spec_fillingBackwards :
    ∃ owner draft, ClassDraft.openClass "Main" = .ok owner ∧
      enter owner "answer" (.method (.primitive .int) []) ⟨0x0009⟩ = .ok draft ∧
      IsLeft owner (.method (.primitive .int) []) ⟨0x0009⟩ fillingBackwards
        (draft.performAll fillingBackwards).leave ∧
      (Emission.of fillingBackwards).code.map Instruction.toBytes = [[0x10, 42], [0xAC]] ∧
      (draft.performAll fillingBackwards).leave.1 = .ok () := by
  obtain ⟨owner, hopen, hvalid, hnext⟩ := ClassDraft.exists_openClass_next_le "Main"
  have room : owner.constants.pool.next + 3 ≤ ConstantPool.limit :=
    Nat.le_trans (Nat.add_le_add_right hnext 3) (by decide)
  obtain ⟨draft, hentered⟩ :=
    exists_enter hvalid.1 "answer" (.method (.primitive .int) []) ⟨0x0009⟩ rfl (by decide) room
  have hleft := leave_spec hentered fillingBackwards
  exact ⟨owner, draft, hopen, hentered, hleft, by decide, hleft.answer.trans (by decide)⟩

end MethodDraft

end JavaClass
