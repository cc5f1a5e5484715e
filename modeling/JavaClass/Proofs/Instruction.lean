import JavaClass.Instruction
import JavaClass.Proofs.OffsetArray
import JavaClass.Proofs.Reading

/-!
# Instructions as bytes

Decoding code is the inverse of laying out instructions one after another. No instruction is empty,
so as many steps as there are bytes reach the end of the code.

- `Instruction.reads_decode`: what is taken off the front of code.
- `Instruction.reads_decodeToEnd`: what all of the code decodes to.
- `Instruction.length_codeBytes`: instructions take up as many bytes as they have places.
-/

namespace JavaClass

/-- An operation is found under its own byte and under no other. -/
theorem Opcode.ofByte?_eq_some_iff {byte : UInt8} {opcode : Opcode} :
    ofByte? byte = some opcode ↔ opcode.toByte = byte := by
  constructor
  · intro h
    -- The operations are numbered by their bytes, which is checked once for all of them.
    have hbytes : ∀ n < count, (Opcode.ofNat n).toByte = UInt8.ofNat n := by decide +kernel
    unfold ofByte? at h
    split at h
    · next hlt =>
      obtain rfl := Option.some.inj h
      rw [hbytes _ hlt, UInt8.ofNat_toNat]
    · cases h
  · rintro rfl
    exact ofByte?_toByte opcode

namespace Instruction

variable {input rest : Bytes} {reports : List Diagnostic}

/-- An instruction is decoded from where its bytes are. -/
theorem reads_decode {offset : Nat} {instruction : Instruction} :
    (decode offset).Reads input reports instruction rest ↔
      reports = [] ∧ input = instruction.toBytes ++ rest := by
  simp only [decode, Reader.reads_bind, Reader.reads_u1]
  constructor
  · rintro ⟨_, byte, between, _, ⟨rfl, rfl⟩, h, rfl⟩
    split at h
    · simp [refuse, Reader.reads_bind] at h
    · next opcode hopcode =>
      rw [Opcode.ofByte?_eq_some_iff] at hopcode
      subst hopcode
      split at h
      · simp only [Reader.reads_bind, Reader.reads_fixed, Reader.reads_pure] at h
        obtain ⟨_, ⟨operands, hlen⟩, _, _, ⟨rfl, rfl⟩, ⟨rfl, rfl, rfl⟩, rfl⟩ := h
        exact ⟨rfl, rfl⟩
      · simp [refuse, Reader.reads_bind] at h
  · rintro ⟨rfl, rfl⟩
    obtain ⟨opcode, operands, supported, hlen⟩ := instruction
    refine ⟨[], opcode.toByte, operands ++ rest, [], ⟨rfl, rfl⟩, ?_, rfl⟩
    simp only [Opcode.ofByte?_toByte, supported, ↓reduceDIte, Reader.reads_bind, Reader.reads_fixed,
      Reader.reads_pure]
    exact ⟨[], ⟨operands, hlen⟩, rest, [], ⟨rfl, rfl⟩, ⟨rfl, rfl, rfl⟩, rfl⟩

/-- A step of a decoder adds the instruction at the front of the code. -/
theorem reads_decodeNext {code found : OffsetArray Instruction} :
    (decodeNext code).Reads input reports found rest ↔
      reports = [] ∧ ∃ instruction, input = instruction.toBytes ++ rest ∧
        found = code.push instruction := by
  simp only [decodeNext, Reader.reads_map, reads_decode, eq_comm (a := found)]
  tauto

/-- Instructions have no bytes only if there are none. -/
theorem flatMap_toBytes_eq_nil_iff {instructions : List Instruction} :
    instructions.flatMap toBytes = [] ↔ instructions = [] := by
  cases instructions <;> simp [toBytes]

/-- At the end of the code nothing is decoded any more. -/
theorem reads_iterate_nil {n : Nat} {code found : OffsetArray Instruction} :
    (Reader.iterate n (fun _ rest => !rest.isEmpty) decodeNext code).Reads [] reports found rest ↔
      reports = [] ∧ rest = [] ∧ ∃ instructions, [] = instructions.flatMap toBytes ∧
        found = code.append instructions := by
  rw [Reader.reads_iterate_of_not rfl]
  simp only [eq_comm (a := ([] : Bytes)), flatMap_toBytes_eq_nil_iff, exists_eq_left,
    OffsetArray.append_nil]
  tauto

/-- A decoder that may take a step for every byte decodes all of the code. -/
theorem reads_iterate {n : Nat} {code found : OffsetArray Instruction} (hn : input.length ≤ n) :
    (Reader.iterate n (fun _ rest => !rest.isEmpty) decodeNext code).Reads input reports found
        rest ↔
      reports = [] ∧ rest = [] ∧ ∃ instructions, input = instructions.flatMap toBytes ∧
        found = code.append instructions := by
  -- By the bound on the steps: each instruction takes at least one of the bytes that are left.
  induction n generalizing code input reports with
  | zero =>
    obtain rfl := List.eq_nil_of_length_eq_zero (Nat.le_zero.mp hn)
    exact reads_iterate_nil
  | succ n ih =>
    cases input with
    | nil => exact reads_iterate_nil
    | cons byte others =>
      rw [Reader.reads_iterate_of rfl]
      simp only [reads_decodeNext]
      constructor
      · rintro ⟨_, _, between, _, ⟨rfl, instruction, hinput, rfl⟩, hothers, rfl⟩
        obtain ⟨rfl, rfl⟩ := List.cons.inj hinput
        obtain ⟨rfl, rfl, instructions, rfl, rfl⟩ := (ih (by simp at hn; omega)).mp hothers
        exact ⟨rfl, rfl, instruction :: instructions, rfl, rfl⟩
      · rintro ⟨rfl, rfl, instructions, hinput, rfl⟩
        cases instructions with
        | nil => cases hinput
        | cons instruction instructions =>
          -- The first instruction has a byte, so the others have fewer than there were.
          have hlen : (instructions.flatMap toBytes).length ≤ n := by
            have := congrArg List.length hinput
            simp only [List.length_cons, List.flatMap_cons, List.length_append, toBytes] at this hn
            omega
          exact ⟨[], code.push instruction, instructions.flatMap toBytes, [],
            ⟨rfl, instruction, hinput, rfl⟩,
            (ih hlen).mpr ⟨rfl, rfl, instructions, rfl, rfl⟩, rfl⟩

/-- All of the code decodes to instructions exactly if it is their bytes. -/
theorem reads_decodeToEnd {code : OffsetArray Instruction} :
    (decodeToEnd input.length).Reads input reports code rest ↔
      reports = [] ∧ rest = [] ∧ code.FilledFrom 0 ∧ input = codeBytes code := by
  rw [decodeToEnd, reads_iterate (Nat.le_refl _)]
  constructor
  · rintro ⟨rfl, rfl, instructions, rfl, rfl⟩
    refine ⟨rfl, rfl, OffsetArray.FilledFrom.startingAt.append instructions, ?_⟩
    rw [codeBytes, OffsetArray.elements_append]
    rfl
  · rintro ⟨rfl, rfl, hfilled, hinput⟩
    exact ⟨rfl, rfl, code.elements, hinput, hfilled.eq_append⟩

/-- An instruction has as many bytes as it takes up places. -/
theorem length_toBytes (instruction : Instruction) :
    instruction.toBytes.length = width instruction := by
  rw [toBytes, List.length_cons, Nat.add_comm]
  rfl

/-- Instructions take up as many bytes as they have places. -/
theorem length_codeBytes {start : Nat} {code : OffsetArray Instruction}
    (h : code.FilledFrom start) :
    (codeBytes code).length = code.totalWidth := by
  simp only [codeBytes, List.length_flatMap, length_toBytes, h.totalWidth_eq]

end Instruction

end JavaClass
