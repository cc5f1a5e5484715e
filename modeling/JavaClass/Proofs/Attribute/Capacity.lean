import JavaClass.Proofs.Attribute.Layout
import JavaClass.Proofs.Attribute.Writable

/-!
# Limits of attributes

The numbers in front of tables, of code and of contents have fixed sizes, and so there are limits to
what an attribute can hold. An attribute is refused exactly if something that hangs on it exceeds
one of them, and the error is about a limit that is exceeded.

- `Attribute.Exceeds`: an attribute exceeds a limit, and the error that says so.
- `Attribute.exceedsWithin_of_write`: what is refused exceeds a limit at some depth.
- `Attribute.not_exceedsWithin_of_write`: what is written exceeds none at any depth.
-/

namespace JavaClass

/-- The errors about limits that are exceeded. -/
def Error.IsOverflow : Error → Prop
  | .codeTooLong _ | .tooMany .. => True
  | _ => False

namespace Attribute

variable {attr : Attribute} {body : MethodBody} {attributes : List Attribute} {bytes : Bytes}
  {cause : Error}

/-- An attribute exceeds a limit of its own, and this is the error about it. -/
inductive Exceeds : Attribute → Error → Prop where
  /-- Two bytes cannot say how many line numbers there are. -/
  | lines {name : ConstantIndex} {lines : List LineNumber} (h : 0xFFFF < lines.length) :
    Exceeds (.lineNumberTable name lines) (.tooMany "line numbers" lines.length)
  /-- No method can have so many bytes of code. -/
  | code {body : MethodBody} {attributes : List Attribute}
    (h : 0xFFFF < (Instruction.codeBytes body.instructions).length) :
    Exceeds (.code body attributes) (.codeTooLong (Instruction.codeBytes body.instructions).length)
  /-- Two bytes cannot say how many handlers there are. -/
  | handlers {body : MethodBody} {attributes : List Attribute} (h : 0xFFFF < body.handlers.length) :
    Exceeds (.code body attributes) (.tooMany "exception handlers" body.handlers.length)
  /-- Two bytes cannot say how many attributes a method body has. -/
  | attributes {body : MethodBody} {attributes : List Attribute} (h : 0xFFFF < attributes.length) :
    Exceeds (.code body attributes) (.tooMany "attributes" attributes.length)
  /-- Four bytes cannot say how many bytes the contents take up. -/
  | size {attr : Attribute} (h : 0xFFFFFFFF < attr.size) :
    Exceeds attr (.tooMany "attribute bytes" attr.size)

/-- Something that hangs on an attribute exceeds a limit. -/
def ExceedsWithin (attr : Attribute) (cause : Error) : Prop :=
  ∃ found, Occurs found attr ∧ found.Exceeds cause

/-- What is exceeded by an attribute of a method body is exceeded within the method body. -/
theorem ExceedsWithin.nested (h : attr.ExceedsWithin cause) (hmem : attr ∈ attributes) :
    (code body attributes).ExceedsWithin cause := by
  obtain ⟨found, hoccurs, hexceeds⟩ := h
  exact ⟨found, .nested hmem hoccurs, hexceeds⟩

/-! ## What is refused -/

/-- An attribute has no length only for a limit that is exceeded within it. -/
theorem exceedsWithin_of_length (hlaid : attr.IsLaidOut) (h : attr.length = .error cause) :
    attr.ExceedsWithin cause := by
  induction attr using induction with
  | sourceFile name file | constantValue name value => cases h
  | lineNumberTable name lines =>
    -- The number of entries is not looked at yet, only the number of bytes.
    obtain ⟨hle, rfl⟩ := count32_eq_error_iff.mp h
    exact ⟨_, .self, .size hle⟩
  | code body attributes ih =>
    obtain ⟨start, hfilled⟩ := hlaid body attributes .self
    have hnested (attr : Attribute) (hmem : attr ∈ attributes) : attr.IsLaidOut :=
      hlaid.of_occurs (.nested hmem .self)
    obtain ⟨hlong, rfl⟩ | ⟨-, htotal | ⟨total, htotal, hlength⟩⟩ := length_code_eq_error h
    · -- The widths of instructions that were laid out add up to the bytes of the code.
      rw [MethodBody.codeLength, ← Instruction.length_codeBytes hfilled] at hlong ⊢
      exact ⟨_, .self, .code hlong⟩
    · obtain ⟨attr, hmem, hattr⟩ := exists_of_totalLengthFrom_eq_error htotal
      exact (ih attr hmem (hnested attr hmem) hattr).nested hmem
    · -- All attributes have a length, so the sum is the size.
      obtain ⟨lengths, hlengths, rfl⟩ := totalLengthFrom_eq_ok_iff.mp htotal
      have htotalSize := sum_lengths hlengths fun attr hmem _ => toNat_of_length (hnested attr hmem)
      rw [bodyLength, Nat.zero_add, htotalSize, MethodBody.codeLength,
        ← Instruction.length_codeBytes hfilled] at hlength
      obtain ⟨hle, rfl⟩ := count32_eq_error_iff.mp hlength
      exact ⟨_, .self, .size hle⟩

/-- A method body is refused for its length, its handlers, the number of its attributes, or one of
them. -/
theorem write_code_eq_error (h : (code body attributes).write = .error cause) :
    (code body attributes).length = .error cause ∨ writeBody body = .error cause ∨
      count16 "attributes" attributes.length = .error cause ∨
        ∃ attr ∈ attributes, attr.write = .error cause := by
  simp only [write, writeEachOnto_nil, bind_eq_error, pure_ne_error, and_false, exists_false,
    or_false] at h
  obtain hlength | ⟨_, -, hfront | ⟨_, -, hcount | ⟨_, -, hnested⟩⟩⟩ := h
  · exact .inl hlength
  · exact .inr (.inl hfront)
  · exact .inr (.inr (.inl hcount))
  · exact .inr (.inr (.inr (exists_of_writeAll_eq_error hnested)))

/-- An attribute is refused only for a limit that is exceeded within it. -/
theorem exceedsWithin_of_write (hlaid : attr.IsLaidOut) (h : attr.write = .error cause) :
    attr.ExceedsWithin cause := by
  induction attr using induction with
  | sourceFile name file | constantValue name value => cases h
  | lineNumberTable name lines =>
    simp only [write, bind_eq_error, pure_ne_error, and_false, exists_false, or_false] at h
    obtain hlength | ⟨_, -, hlines⟩ := h
    · exact exceedsWithin_of_length hlaid hlength
    · obtain ⟨hle, rfl⟩ := of_writeTable_ok_eq_error hlines
      exact ⟨_, .self, .lines hle⟩
  | code body attributes ih =>
    obtain hlength | hfront | hcount | ⟨attr, hmem, hattr⟩ := write_code_eq_error h
    · -- Lengths come first, so this can be about an attribute that would be written much later.
      exact exceedsWithin_of_length hlaid hlength
    · simp only [writeBody, bind_eq_error, pure_ne_error, and_false, exists_false, or_false]
        at hfront
      obtain ⟨hle, rfl⟩ := of_writeTable_ok_eq_error hfront
      exact ⟨_, .self, .handlers hle⟩
    · obtain ⟨hle, rfl⟩ := count16_eq_error_iff.mp hcount
      exact ⟨_, .self, .attributes hle⟩
    · exact (ih attr hmem (hlaid.of_occurs (.nested hmem .self)) hattr).nested hmem

/-! ## What is written -/

/-- Four bytes can say how many bytes an attribute that has a layout takes up. -/
theorem size_lt_of_write (hlaid : attr.IsLaidOut) (h : attr.write = .ok bytes) :
    attr.size < 0x100000000 := by
  obtain ⟨length, -, hlength, -⟩ := write_eq_ok.mp h
  rw [← toNat_of_length hlaid hlength]
  exact length.toNat_lt

/-- An attribute that is written exceeds no limit of its own. -/
theorem not_exceeds_of_write (hlaid : attr.IsLaidOut) (h : attr.write = .ok bytes) :
    ¬ attr.Exceeds cause := by
  intro hexceeds
  -- Counts are bounded by the bytes that say them, in the layout of what is written.
  cases hexceeds with
  | lines hlong =>
    obtain - | - | ⟨-, hlines⟩ := hasLayout_of_write hlaid h
    exact absurd hlines.length_lt (Nat.not_lt.mpr hlong)
  | @code body attributes hlong =>
    obtain ⟨start, hfilled⟩ := hlaid body attributes .self
    have hle := codeFits_of_write h body attributes .self
    rw [MethodBody.codeLength, ← Instruction.length_codeBytes hfilled] at hle
    exact absurd hlong (Nat.not_lt.mpr hle)
  | handlers hlong =>
    obtain - | - | - | ⟨-, -, hhandlers, -⟩ := hasLayout_of_write hlaid h
    exact absurd hhandlers.length_lt (Nat.not_lt.mpr hlong)
  | attributes hlong =>
    obtain - | - | - | ⟨-, -, -, hnested⟩ := hasLayout_of_write hlaid h
    exact absurd hnested.length_lt (Nat.not_lt.mpr hlong)
  | size hlong => exact absurd (size_lt_of_write hlaid h) (Nat.not_lt.mpr hlong)

/-- Nothing that hangs on an attribute that is written exceeds a limit. -/
theorem not_exceedsWithin_of_write (hlaid : attr.IsLaidOut) (h : attr.write = .ok bytes) :
    ¬ attr.ExceedsWithin cause := by
  rintro ⟨found, hoccurs, hexceeds⟩
  obtain ⟨piece, hpiece, -⟩ := exists_write_of_occurs h hoccurs
  exact not_exceeds_of_write (hlaid.of_occurs hoccurs) hpiece hexceeds

end Attribute

end JavaClass
