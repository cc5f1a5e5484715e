import JavaClass.Proofs.Instruction
import JavaClass.Proofs.Reading.Failing

/-!
# Where decoding stops

Code decodes if it is instructions whose lengths the table gives, one after another. Otherwise it
starts with such instructions, and decoding stops behind them: at a byte that is no operation, at an
operation of variable length, or at one whose operand bytes are cut off.

- `Instruction.IsCode`: the code that decodes.
- `Instruction.Stops`: why decoding stops at a place, and what it reports there.
- `Instruction.fails_decodeToEnd`: all of the code in front of the place decodes.
- `Instruction.iterate_decodeCounting`: the place is the number of bytes in front of it.
- `Instruction.decodesExactly`: what code decodes to, and where it does not.
-/

namespace JavaClass.Instruction

/-- Operations whose length the table gives, each in front of as many operand bytes as it says. -/
inductive IsCode : Bytes → Prop where
  /-- No code is code. -/
  | nil : IsCode []
  /-- One more instruction stands in front of code. -/
  | cons {opcode : Opcode} {operands code : Bytes} (supported : opcode.isSupported = true)
    (length_operands : operands.length = opcode.operandBytes) (h : IsCode code) :
    IsCode (opcode.toByte :: operands ++ code)

/-- Code is the bytes of instructions. -/
theorem isCode_iff {code : Bytes} :
    IsCode code ↔ ∃ instructions : List Instruction, code = instructions.flatMap toBytes := by
  constructor
  · intro h
    induction h with
    | nil => exact ⟨[], rfl⟩
    | @cons opcode operands code supported length_operands h ih =>
      obtain ⟨instructions, rfl⟩ := ih
      exact ⟨⟨opcode, operands, supported, length_operands⟩ :: instructions, rfl⟩
  · rintro ⟨instructions, rfl⟩
    induction instructions with
    | nil => exact .nil
    | cons instruction instructions ih =>
      exact .cons instruction.supported instruction.length_operands ih

/-- Why decoding stops at a place of the code: what stands there, what is reported and the error. -/
inductive Stops (place : Nat) : Bytes → List Diagnostic → Error → Prop where
  /-- The byte is no operation. -/
  | unknown {byte : UInt8} (h : ∀ opcode : Opcode, opcode.toByte ≠ byte) (rest : Bytes) :
    Stops place (byte :: rest) [.unknownOpcode byte place] (.unknownOpcode byte place)
  /-- The operation has variable length. -/
  | unsupported {opcode : Opcode} (h : opcode.isSupported = false) (rest : Bytes) :
    Stops place (opcode.toByte :: rest) [.unsupportedOpcode opcode.toByte place]
      (.unsupportedOpcode opcode.toByte place)
  /-- The code ends in the operand bytes. Nothing is reported. -/
  | cutOff {opcode : Opcode} (h : opcode.isSupported = true) {operands : Bytes}
    (hlt : operands.length < opcode.operandBytes) :
    Stops place (opcode.toByte :: operands) [] (.endOfInput .fixed)

/-- There is a byte at which decoding stops. -/
theorem Stops.length_pos {place : Nat} {stop : Bytes} {reports : List Diagnostic} {cause : Error}
    (h : Stops place stop reports cause) : 0 < stop.length := by
  cases h <;> exact Nat.succ_pos _

/-! ## One instruction -/

variable {input : Bytes} {reports : List Diagnostic} {cause : Error}

theorem fails_refuse {α : Type} {diagnostic : Diagnostic} {found : Error} :
    (refuse diagnostic found : Reader α).Fails input reports cause ↔
      reports = [diagnostic] ∧ cause = found := by
  simp only [refuse, Reader.fails_bind, Reader.fails_report, Reader.reads_report, Reader.fails_fail,
    false_or]
  constructor
  · rintro ⟨_, _, _, _, ⟨rfl, rfl⟩, ⟨rfl, rfl⟩, rfl⟩
    exact ⟨rfl, rfl⟩
  · rintro ⟨rfl, rfl⟩
    exact ⟨_, (), _, [], ⟨rfl, rfl⟩, ⟨rfl, rfl⟩, rfl⟩

/-- An instruction is not decoded where the code ends, and where decoding stops. -/
theorem fails_decode {place : Nat} :
    (decode place).Fails input reports cause ↔
      input = [] ∧ reports = [] ∧ cause = .endOfInput .fixed ∨
        Stops place input reports cause := by
  simp only [decode, Reader.fails_bind, Reader.fails_u1, Reader.reads_u1]
  refine or_congr_right ⟨?_, ?_⟩
  · rintro ⟨_, byte, rest, _, ⟨rfl, rfl⟩, h, rfl⟩
    -- The byte was read, so what follows depends on what the byte is.
    change Stops place (byte :: rest) _ cause
    split at h
    · next hbyte =>
      obtain ⟨rfl, rfl⟩ := fails_refuse.mp h
      refine .unknown (fun opcode hopcode => ?_) rest
      rw [← hopcode, Opcode.ofByte?_toByte] at hbyte
      cases hbyte
    · next opcode hopcode =>
      rw [Opcode.ofByte?_eq_some_iff] at hopcode
      subst hopcode
      split at h
      · next supported =>
        rw [Reader.fails_map, Reader.fails_fixed] at h
        obtain ⟨hlt, rfl, rfl⟩ := h
        exact .cutOff supported hlt
      · next unsupported =>
        obtain ⟨rfl, rfl⟩ := fails_refuse.mp h
        exact .unsupported (Bool.eq_false_iff.mpr unsupported) rest
  · intro h
    cases h with
    | @unknown byte h rest =>
      have hbyte : Opcode.ofByte? byte = none :=
        Option.eq_none_iff_forall_ne_some.mpr fun opcode hopcode =>
          h opcode (Opcode.ofByte?_eq_some_iff.mp hopcode)
      refine ⟨[], byte, rest, _, ⟨rfl, rfl⟩, ?_, rfl⟩
      rw [hbyte]
      exact fails_refuse.mpr ⟨rfl, rfl⟩
    | @unsupported opcode h rest =>
      refine ⟨[], opcode.toByte, rest, _, ⟨rfl, rfl⟩, ?_, rfl⟩
      simp only [Opcode.ofByte?_toByte, h, Bool.false_eq_true, ↓reduceDIte]
      exact fails_refuse.mpr ⟨rfl, rfl⟩
    | @cutOff opcode h operands hlt =>
      refine ⟨[], opcode.toByte, operands, _, ⟨rfl, rfl⟩, ?_, rfl⟩
      simp only [Opcode.ofByte?_toByte, h, ↓reduceDIte]
      exact Reader.fails_map.mpr (Reader.fails_fixed.mpr ⟨hlt, rfl, rfl⟩)

/-! ## All of the code -/

/-- Decoding stops behind instructions. The place is where the array that was filled so far ends. -/
theorem exists_of_fails_iterate {n : Nat} {code : OffsetArray Instruction} (hn : input.length ≤ n)
    (h : (Reader.iterate n (fun _ rest => !rest.isEmpty) decodeNext code).Fails input reports
      cause) :
    ∃ (instructions : List Instruction) (stop : Bytes),
      input = instructions.flatMap toBytes ++ stop ∧
        Stops (code.next + (instructions.flatMap toBytes).length) stop reports cause := by
  -- By the bound on the steps: each instruction takes at least one of the bytes that are left.
  induction n generalizing code input reports with
  | zero =>
    obtain rfl := List.eq_nil_of_length_eq_zero (Nat.le_zero.mp hn)
    exact absurd h (Reader.fails_iterate_of_not rfl)
  | succ n ih =>
    cases input with
    | nil => exact absurd h (Reader.fails_iterate_of_not rfl)
    | cons byte others =>
      rw [Reader.fails_iterate_of rfl] at h
      simp only [reads_decodeNext] at h
      obtain hfirst | ⟨_, _, between, _, ⟨rfl, instruction, hinput, rfl⟩, hothers, rfl⟩ := h
      · rw [decodeNext, Reader.fails_map, fails_decode] at hfirst
        obtain ⟨hnil, -⟩ | hstops := hfirst
        · cases hnil
        · exact ⟨[], _, rfl, hstops⟩
      · have hlen : between.length ≤ n := by
          have := congrArg List.length hinput
          simp only [List.length_cons, List.length_append, toBytes] at this hn
          omega
        obtain ⟨instructions, stop, rfl, hstops⟩ := ih hlen hothers
        refine ⟨instruction :: instructions, stop, ?_, ?_⟩
        · rw [hinput, List.flatMap_cons, List.append_assoc]
        · -- The array ends as much later as the instruction has bytes.
          rw [OffsetArray.next_push, ← length_toBytes, Nat.add_assoc,
            ← List.length_append] at hstops
          rwa [List.flatMap_cons]

/-- If code does not decode, all of it in front of the place where decoding stops does. -/
theorem fails_decodeToEnd (h : (decodeToEnd input.length).Fails input reports cause) :
    ∃ (instructions : List Instruction) (stop : Bytes),
      input = instructions.flatMap toBytes ++ stop ∧
        Stops (instructions.flatMap toBytes).length stop reports cause := by
  obtain ⟨instructions, stop, hinput, hstops⟩ := exists_of_fails_iterate (Nat.le_refl _) h
  rw [show OffsetArray.empty.next = 0 from rfl, Nat.zero_add] at hstops
  exact ⟨instructions, stop, hinput, hstops⟩

/-! ## Places and bytes -/

/-- Takes one more instruction off the front of what is left of code of so many bytes; its place is
the number of bytes that were taken before. -/
def decodeCounting (length : Nat) (code : OffsetArray Instruction) :
    Reader (OffsetArray Instruction) := fun rest =>
  (do return code.push (← decode (length - rest.length)) : Reader (OffsetArray Instruction)) rest

/-- As the bytes that were taken are those of the instructions, counting them gives the places that
the instructions have. -/
theorem iterate_decodeCounting {length n : Nat} {code : OffsetArray Instruction} {rest : Bytes}
    (hlen : code.next + rest.length = length) :
    Reader.iterate n (fun _ rest => !rest.isEmpty) (decodeCounting length) code rest =
      Reader.iterate n (fun _ rest => !rest.isEmpty) decodeNext code rest := by
  induction n generalizing code rest with
  | zero => rfl
  | succ n ih =>
    -- The bytes that are left are as many as the places that are missing.
    have hstep : decodeCounting length code rest = decodeNext code rest := by
      rw [decodeCounting, decodeNext, ← hlen, Nat.add_sub_cancel]
    rw [Reader.iterate_succ, Reader.iterate_succ, Reader.bind_apply, Reader.bind_apply, hstep]
    split
    · split
      · rfl
      · next reports next between hnext =>
        obtain ⟨rfl, instruction, rfl, rfl⟩ := reads_decodeNext.mp hnext
        -- What was taken is what the array grew by.
        have hnext : (code.push instruction).next + between.length = length := by
          rw [← hlen, OffsetArray.next_push, ← length_toBytes, List.length_append, Nat.add_assoc]
        rw [ih hnext]
    · rfl

/-! ## Decoding as a whole -/

theorem decodeAll_eq_ok_iff {code rest : Bytes} {found : OffsetArray Instruction} :
    decodeAll code = ⟨reports, .ok (found, rest)⟩ ↔
      reports = [] ∧ rest = [] ∧ found.FilledFrom 0 ∧ code = codeBytes found :=
  reads_decodeToEnd

/-- The bytes of instructions decode to them. -/
theorem decodeAll_flatMap_toBytes (instructions : List Instruction) :
    decodeAll (instructions.flatMap toBytes) = ⟨[], .ok (.ofList instructions, [])⟩ := by
  refine decodeAll_eq_ok_iff.mpr ⟨rfl, rfl, OffsetArray.FilledFrom.startingAt.append _, ?_⟩
  rw [codeBytes, OffsetArray.ofList, OffsetArray.elements_append]
  rfl

/-- What decoding makes of some code. -/
structure DecodesExactly (code : Bytes) : Prop where
  /-- Code decodes exactly if it is supported operations with their operand bytes. -/
  decodes_iff : (∃ reports found rest, decodeAll code = ⟨reports, .ok (found, rest)⟩) ↔ IsCode code
  /-- Nothing is reported about code that decodes, and nothing is left of it. The instructions have
  its bytes, and each stands where those before it end. -/
  decoded : ∀ reports found rest, decodeAll code = ⟨reports, .ok (found, rest)⟩ →
    reports = [] ∧ rest = [] ∧ codeBytes found = code ∧ found.totalWidth = code.length ∧
      ∀ number entry, found.toList[number]? = some entry →
        entry.1 = ((found.elements.take number).map byteLength).sum
  /-- The bytes of instructions decode to exactly these instructions. -/
  laidOut : ∀ instructions : List Instruction, code = instructions.flatMap toBytes →
    ∃ found, decodeAll code = ⟨[], .ok (found, [])⟩ ∧ found.elements = instructions
  /-- Code that does not decode does so up to some place. There, a byte is no operation or one of
  variable length, which is reported and the error, or the code ends in operand bytes. -/
  stopped : ∀ reports cause, decodeAll code = ⟨reports, .error cause⟩ →
    ∃ place < code.length, (∃ front, decodeAll (code.take place) = ⟨[], .ok (front, [])⟩) ∧
      Stops place (code.drop place) reports cause
  /-- The places at which instructions are decoded are the numbers of bytes in front of them. -/
  counted : (Reader.iterate code.length (fun _ rest => !rest.isEmpty) (decodeCounting code.length)
    .empty).run code = decodeAll code

/-- Code is decoded exactly, whether it is well-formed or not. -/
theorem decodesExactly (code : Bytes) : DecodesExactly code where
  decodes_iff := by
    rw [isCode_iff]
    constructor
    · rintro ⟨reports, found, rest, h⟩
      obtain ⟨-, -, -, hcode⟩ := decodeAll_eq_ok_iff.mp h
      exact ⟨found.elements, hcode⟩
    · rintro ⟨instructions, rfl⟩
      exact ⟨_, _, _, decodeAll_flatMap_toBytes instructions⟩
  decoded := by
    intro reports found rest h
    obtain ⟨rfl, rfl, hfilled, rfl⟩ := decodeAll_eq_ok_iff.mp h
    refine ⟨rfl, rfl, rfl, (length_codeBytes hfilled).symm, fun number entry hentry => ?_⟩
    rw [hfilled.offset_eq hentry, Nat.zero_add, OffsetArray.elements, ← List.map_take, List.map_map]
    rfl
  laidOut := by
    rintro instructions rfl
    refine ⟨_, decodeAll_flatMap_toBytes instructions, ?_⟩
    rw [OffsetArray.ofList, OffsetArray.elements_append]
    rfl
  stopped := by
    intro reports cause h
    obtain ⟨instructions, stop, rfl, hstops⟩ := fails_decodeToEnd h
    -- The place is where the instructions end that stand in front of it.
    refine ⟨(instructions.flatMap toBytes).length, ?_, ?_, ?_⟩
    · have := hstops.length_pos
      rw [List.length_append]
      omega
    · rw [List.take_left]
      exact ⟨_, decodeAll_flatMap_toBytes instructions⟩
    · rwa [List.drop_left]
  counted := iterate_decodeCounting (Nat.zero_add _)

/-- Code with a switch behind a constant stops decoding at the switch, and code that ends in an
operand at its instruction. -/
theorem decodesExactly_switch_and_cutOff :
    (∃ place < 3, (∃ front, decodeAll (List.take place [0x10, 5, 0xAA]) = ⟨[], .ok (front, [])⟩) ∧
      Stops place (List.drop place [0x10, 5, 0xAA]) [.unsupportedOpcode 0xAA 2]
        (.unsupportedOpcode 0xAA 2)) ∧
    ∃ place < 3, (∃ front, decodeAll (List.take place [0, 0x11, 1]) = ⟨[], .ok (front, [])⟩) ∧
      Stops place (List.drop place [0, 0x11, 1]) [] (.endOfInput .fixed) := by
  have hswitch : decodeAll [0x10, 5, 0xAA] =
      ⟨[.unsupportedOpcode 0xAA 2], .error (.unsupportedOpcode 0xAA 2)⟩ :=
    Reader.ext_reading (by decide +kernel) (by decide +kernel)
  have hcut : decodeAll [0, 0x11, 1] = ⟨[], .error (.endOfInput .fixed)⟩ :=
    Reader.ext_reading (by decide +kernel) (by decide +kernel)
  exact ⟨(decodesExactly _).stopped _ _ hswitch, (decodesExactly _).stopped _ _ hcut⟩

end JavaClass.Instruction
