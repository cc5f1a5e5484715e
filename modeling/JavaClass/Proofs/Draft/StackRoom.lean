import JavaClass.Proofs.Draft.Layout
import Mathlib.Data.Int.Order.Basic
import Mathlib.Order.MinMax

/-!
# How much room a stack limit leaves

The limit on the operand stack of a method is the greatest sum of what its instructions push less
what they pop, where an invocation pushes nothing. What it yields is on the stack all the same, and
an instruction that takes it makes the sum fall, even below zero. A stack never holds fewer than no
entries, so from there on the sum is less than the number of entries, and the limit can be too low.
How far it is too low at most is told by the instructions that take more than was counted.

- `BasicBlock.height`, `BasicBlock.room`: how many entries the stack holds, and at most.
- `BasicBlock.missing`: how many entries were taken, at most, that had not been counted.
- `BasicBlock.height_eq`: the stack holds the sum and what had been missing so far.
- `BasicBlock.LimitsStack`: what a limit says about the room that instructions need, and
  `MethodDraft.limitsStack_of_leave`: the limit that is worked out from blocks, and the one of a
  method that is left.
- `BasicBlock.not_forall_pushes_le_maxStackDepth`: the limit can be less than what one instruction
  pushes.
-/

namespace JavaClass

namespace BasicBlock

variable {instructions before after front : List Instruction} {instruction : Instruction}

/-! ## The entries on the stack -/

/-- The number of entries on the stack after an instruction. If it pops more than were counted, it
pops what invocations yielded, and none of those that were counted is left. -/
def heightAfter (height : Nat) (instruction : Instruction) : Nat :=
  height - instruction.pops + instruction.pushes

/-- The number of entries on the stack after some instructions. -/
def height (instructions : List Instruction) : Nat := instructions.foldl heightAfter 0

/-- The greatest number of entries on the stack before, between and after some instructions. -/
def room (instructions : List Instruction) : Nat := (instructions.inits.map height).foldl max 0

/-- How many entries, at most, an instruction takes that had not been counted, if so many had been
counted before all instructions. -/
def missingFrom (depth : Int) : List Instruction → Nat
  | [] => 0
  | instruction :: rest =>
    max (instruction.pops - depth).toNat
      (missingFrom (depth - instruction.pops + instruction.pushes) rest)

/-- How many entries, at most, one of some instructions takes that had not been counted. -/
def missing (instructions : List Instruction) : Nat := missingFrom 0 instructions

/-- An instruction leaves what it pushes. -/
theorem pushes_le_height (before : List Instruction) (instruction : Instruction) :
    instruction.pushes ≤ height (before ++ [instruction]) := by
  rw [height, List.foldl_append]
  show instruction.pushes ≤ height before - instruction.pops + instruction.pushes
  omega

/-! ## Greatest values -/

theorem foldl_max_le_iff {α : Type} [LinearOrder α] {values : List α} {initial bound : α} :
    values.foldl max initial ≤ bound ↔ initial ≤ bound ∧ ∀ value ∈ values, value ≤ bound := by
  induction values generalizing initial with
  | nil => simp
  | cons value values ih =>
    rw [List.foldl_cons, ih, max_le_iff, List.forall_mem_cons, and_assoc]

theorem peakDepth_le_iff {bound : Nat} :
    peakDepth instructions ≤ bound ↔
      ∀ front, front <+: instructions → stackEffect front ≤ bound := by
  rw [peakDepth, Int.toNat_le, foldl_max_le_iff]
  simp

theorem room_le_iff {bound : Nat} :
    room instructions ≤ bound ↔ ∀ front, front <+: instructions → height front ≤ bound := by
  rw [room, foldl_max_le_iff]
  simp

/-- No instructions in front hold more than the greatest number of entries. -/
theorem height_le_room (h : front <+: instructions) : height front ≤ room instructions :=
  room_le_iff.mp (Nat.le_refl _) front h

theorem stackEffect_le_peakDepth (h : front <+: instructions) :
    stackEffect front ≤ peakDepth instructions :=
  peakDepth_le_iff.mp (Nat.le_refl _) front h

/-- An instruction ends a front of the code that it is in. -/
theorem isPrefix_append_cons (before : List Instruction) (instruction : Instruction)
    (after : List Instruction) :
    before ++ [instruction] <+: before ++ instruction :: after :=
  ⟨after, by rw [List.append_assoc, List.singleton_append]⟩

/-! ## What is missing -/

@[simp]
theorem stackEffect_nil : stackEffect [] = 0 := rfl

theorem stackEffect_cons (instruction : Instruction) (instructions : List Instruction) :
    stackEffect (instruction :: instructions) =
      instruction.pushes - instruction.pops + stackEffect instructions := by
  rw [stackEffect, List.map_cons, List.sum_cons]
  rfl

/-- What is missing is at most a number exactly if each instruction takes at most so many more than
were counted in front of it. -/
theorem missingFrom_le_iff {depth : Int} {bound : Nat} :
    missingFrom depth instructions ≤ bound ↔
      ∀ before instruction after, instructions = before ++ instruction :: after →
        (instruction.pops : Int) ≤ depth + stackEffect before + bound := by
  induction instructions generalizing depth with
  | nil => simp [missingFrom]
  | cons first rest ih =>
    rw [missingFrom, Nat.max_le, ih, Int.toNat_le]
    constructor
    · rintro ⟨hfirst, hrest⟩ before instruction after heq
      cases before with
      | nil =>
        obtain ⟨rfl, -⟩ := List.cons.inj heq
        rw [stackEffect_nil]
        omega
      | cons other before =>
        obtain ⟨rfl, hafter⟩ := List.cons.inj heq
        have := hrest before instruction after hafter
        rw [stackEffect_cons]
        omega
    · intro h
      refine ⟨?_, fun before instruction after heq => ?_⟩
      · have hfirst := h [] first rest rfl
        rw [stackEffect_nil] at hfirst
        omega
      · have hrest := h (first :: before) instruction after (by rw [heq, List.cons_append])
        rw [stackEffect_cons] at hrest
        omega

theorem missing_le_iff {bound : Nat} :
    missing instructions ≤ bound ↔
      ∀ before instruction after, instructions = before ++ instruction :: after →
        (instruction.pops : Int) ≤ stackEffect before + bound := by
  rw [missing, missingFrom_le_iff]
  simp only [Int.zero_add]

/-- No more is missing in front of some place than everywhere. -/
theorem missing_le_of_isPrefix (h : front <+: instructions) :
    missing front ≤ missing instructions := by
  obtain ⟨rest, rfl⟩ := h
  rw [missing_le_iff]
  intro before instruction after heq
  apply missing_le_iff.mp (Nat.le_refl (missing (front ++ rest))) before instruction (after ++ rest)
  rw [heq, List.append_assoc, List.cons_append]

/-! ## The sum and the number of entries -/

/-- The stack holds what was counted and what was missing, before an instruction or so far. -/
theorem foldl_heightAfter_eq {depth : Int} {height extra : Nat}
    (h : (height : Int) = depth + extra) :
    ((instructions.foldl heightAfter height : Nat) : Int) =
      depth + stackEffect instructions + max extra (missingFrom depth instructions) := by
  induction instructions generalizing depth height extra with
  | nil =>
    rw [List.foldl_nil, missingFrom, stackEffect_nil]
    omega
  | cons instruction rest ih =>
    -- An instruction that takes more than there is makes up for it by what was missing.
    have hafter : (heightAfter height instruction : Int) =
        (depth - instruction.pops + instruction.pushes) +
          (max extra (instruction.pops - depth).toNat : Nat) := by
      rw [heightAfter]
      omega
    rw [List.foldl_cons, ih hafter, stackEffect_cons, missingFrom]
    omega

/-- The stack holds what was counted and what had been missing so far. -/
theorem height_eq (instructions : List Instruction) :
    (height instructions : Int) = stackEffect instructions + missing instructions := by
  have hzero : ((0 : Nat) : Int) = (0 : Int) + (0 : Nat) := rfl
  have heq := @foldl_heightAfter_eq instructions 0 0 0 hzero
  rw [height, heq, missing]
  omega

theorem peakDepth_le_room (instructions : List Instruction) :
    peakDepth instructions ≤ room instructions := by
  rw [peakDepth_le_iff]
  intro front hfront
  have hheight := height_le_room hfront
  have heq := height_eq front
  omega

theorem room_le (instructions : List Instruction) :
    room instructions ≤ peakDepth instructions + missing instructions := by
  rw [room_le_iff]
  intro front hfront
  have hpeak := stackEffect_le_peakDepth hfront
  have hmissing := missing_le_of_isPrefix hfront
  have heq := height_eq front
  omega

/-! ## Limits -/

/-- What a limit says about the room on the stack that some code needs. -/
structure LimitsStack (code : List Instruction) (limit : Nat) : Prop where
  /-- The code needs as much room as the limit says. -/
  le_room : limit ≤ room code
  /-- It needs no more than that and what is missing. -/
  room_le : room code ≤ limit + missing code
  /-- There is room for what an instruction pushes, but for what is missing up to there. -/
  pushes_le : ∀ before instruction after, code = before ++ instruction :: after →
    instruction.pushes ≤ limit + missing (before ++ [instruction])
  /-- If every instruction finds counted what it takes, the limit is the room that the code needs,
  and so there is room for what each instruction pushes. -/
  of_counted : (∀ before instruction after, code = before ++ instruction :: after →
    (instruction.pops : Int) ≤ stackEffect before) →
    limit = room code ∧ ∀ instruction ∈ code, instruction.pushes ≤ limit

/-- The greatest sum of some code limits the room that it needs. -/
theorem limitsStack_peakDepth (code : List Instruction) : LimitsStack code (peakDepth code) where
  le_room := peakDepth_le_room code
  room_le := room_le code
  pushes_le := by
    rintro before instruction after rfl
    have hpeak := stackEffect_le_peakDepth (isPrefix_append_cons before instruction after)
    have hpushes := pushes_le_height before instruction
    have heq := height_eq (before ++ [instruction])
    omega
  of_counted := by
    intro hcounted
    have hnone : missing code ≤ 0 := by
      rw [missing_le_iff]
      simpa using hcounted
    have hroom : peakDepth code = room code := by
      have hle := peakDepth_le_room code
      have hge := room_le code
      omega
    refine ⟨hroom, fun instruction hmem => ?_⟩
    obtain ⟨before, after, rfl⟩ := List.append_of_mem hmem
    calc instruction.pushes
      _ ≤ height (before ++ [instruction]) := pushes_le_height before instruction
      _ ≤ room (before ++ instruction :: after) :=
        height_le_room (isPrefix_append_cons before instruction after)
      _ = peakDepth (before ++ instruction :: after) := hroom.symm

/-- Code that calls a method, drops what it yields and answers zero. -/
def discardingResult : List Instruction :=
  [⟨.invokestatic, [0, 1], by decide, by decide⟩, ⟨.pop, [], by decide, by decide⟩,
    ⟨.iconst0, [], by decide, by decide⟩, ⟨.ireturn, [], by decide, by decide⟩]

/-- A limit does not leave room for what each instruction pushes. Dropping what a method yields
makes the sum fall below zero, and the zero that is pushed next makes up for that only. -/
theorem not_forall_pushes_le_maxStackDepth :
    ¬ ∀ (blocks : List BasicBlock) (instruction : Instruction),
      instruction ∈ blocks.flatMap BasicBlock.toList →
        instruction.pushes ≤ maxStackDepth blocks := by
  intro h
  have hle := h [⟨.ofList discardingResult⟩] ⟨.iconst0, [], by decide, by decide⟩ (by decide)
  exact absurd hle (by decide)

end BasicBlock

/-! ## Methods -/

namespace MethodDraft

open BasicBlock (LimitsStack discardingResult maxStackDepth maxStackDepth_eq)

/-- The limit in a body is the one that was worked out from the blocks, and is not cut off. -/
theorem of_body {draft : MethodDraft} {body : MethodBody} (h : draft.body = .ok body) :
    body.maxStack.toNat = maxStackDepth draft.blocks.toList ∧
      body.instructions.elements = draft.instructions := by
  rw [MethodDraft.body] at h
  dsimp only at h
  split at h
  · cases h
  · next hshallow =>
    split at h
    · cases h
    · cases h
      exact ⟨UInt16.toNat_ofNat_of_lt (by rw [UInt16.size]; omega), OffsetArray.elements_ofList _⟩

/-- Blocks that run one after another need as much room on the stack as the limit says that is
worked out from them, and no more but for what is missing. The same is true of the limit in a method
that is left. -/
theorem limitsStack_of_leave (blocks : List BasicBlock) (draft : MethodDraft) :
    LimitsStack (blocks.flatMap BasicBlock.toList) (maxStackDepth blocks) ∧
      (draft.leave.1 = .ok () → ∃ body,
        draft.leave.2.file.methods = draft.owner.file.methods ++ [withBody draft.method body] ∧
          body.instructions.elements = draft.instructions ∧
          LimitsStack draft.instructions body.maxStack.toNat) := by
  have hlimits (blocks : List BasicBlock) :
      LimitsStack (blocks.flatMap BasicBlock.toList) (maxStackDepth blocks) := by
    rw [maxStackDepth_eq]
    exact BasicBlock.limitsStack_peakDepth _
  refine ⟨hlimits blocks, fun hleft => ?_⟩
  cases hbody : draft.body with
  | error cause =>
    rw [leave_of_error hbody] at hleft
    cases hleft
  | ok body =>
    obtain ⟨hmaxStack, helements⟩ := of_body hbody
    refine ⟨body, by rw [(leave_of_ok hbody).2], helements, ?_⟩
    rw [hmaxStack]
    exact hlimits draft.blocks.toList

/-- Calls that make a method drop what another one yields and answer zero. -/
def discardingCalls : List Call := discardingResult.map .pushInstruction

/-- For instance, such a method needs room for the zero, and gets none. -/
theorem limitsStack_of_leave_discardingCalls :
    ∃ owner entered draft, ClassDraft.openClass "Main" = .ok owner ∧
      enter owner "answer" (.method (.primitive .int) []) ⟨0x0009⟩ = .ok entered ∧
      draft = entered.performAll discardingCalls ∧ draft.leave.1 = .ok () ∧
      BasicBlock.room discardingResult = 1 ∧ LimitsStack discardingResult 0 ∧
      ∃ body, draft.leave.2.file.methods =
          draft.owner.file.methods ++ [withBody draft.method body] ∧
        body.instructions.elements = discardingResult ∧
        LimitsStack discardingResult body.maxStack.toNat := by
  obtain ⟨owner, hopen, hvalid, hnext⟩ := ClassDraft.exists_openClass_next_le "Main"
  have room : owner.constants.pool.next + 3 ≤ ConstantPool.limit :=
    Nat.le_trans (Nat.add_le_add_right hnext 3) (by decide)
  obtain ⟨entered, hentered⟩ :=
    exists_enter hvalid.1 "answer" (.method (.primitive .int) []) ⟨0x0009⟩ rfl (by decide) room
  have hholds : (entered.performAll discardingCalls).Holds (Emission.of discardingCalls) :=
    (of_enter hentered).1.performAll discardingCalls
  have hcode : (Emission.of discardingCalls).code = discardingResult := by decide
  have hcheck : checkLimits (Emission.of discardingCalls).code = .ok () := by decide
  have hbody := hholds.body_eq
  rw [hcheck] at hbody
  have hleft := (leave_of_ok hbody).1
  obtain ⟨hblocks, hleave⟩ :=
    limitsStack_of_leave [⟨.ofList discardingResult⟩] (entered.performAll discardingCalls)
  obtain ⟨body, hmethods, helements, hlimits⟩ := hleave hleft
  rw [hholds.instructions_eq.trans hcode] at helements hlimits
  exact ⟨owner, entered, _, hopen, hentered, rfl, hleft, by decide, hblocks, body, hmethods,
    helements, hlimits⟩

end MethodDraft

end JavaClass
