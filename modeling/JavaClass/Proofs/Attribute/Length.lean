import JavaClass.Proofs.Attribute

/-!
# Attributes declare their lengths

Before an attribute is written, its length is worked out by a recursion of its own, in which the
attributes of a method body count with the lengths that are worked out for them. What is written
afterwards has this length at every depth, so that a reader who goes by the declared lengths finds
each attribute where it stands.

- `Attribute.totalLengthFrom_eq_ok_iff`: the lengths that are summed up for a method body.
- `Attribute.exists_write_of_occurs`: what hangs on an attribute stands among the bytes of it.
- `Attribute.IsFramed`: the bytes of an attribute are as many as its length says.
- `Attribute.isFramed_of_write`: all that is written is framed in this way.
-/

namespace JavaClass.Attribute

variable {attr found : Attribute} {bytes : Bytes} {length : UInt32}

/-! ## Attributes in attributes -/

/-- What hangs on something that hangs on an attribute hangs on the attribute. -/
theorem Occurs.trans {outer : Attribute} (h : Occurs found attr) (houter : Occurs attr outer) :
    Occurs found outer := by
  induction houter with
  | self => exact h
  | nested hmem _ ih => exact .nested hmem ih

/-- Code that was laid out in an attribute was so in all that hangs on it. -/
theorem IsLaidOut.of_occurs (h : attr.IsLaidOut) (hoccurs : Occurs found attr) :
    found.IsLaidOut :=
  fun body attributes hcode => h body attributes (hcode.trans hoccurs)

/-- What hangs on an attribute that is written is written itself, and its bytes stand among those
of the attribute. -/
theorem exists_write_of_occurs (hwrite : attr.write = .ok bytes) (hoccurs : Occurs found attr) :
    ∃ piece, found.write = .ok piece ∧ piece <:+: bytes := by
  induction hoccurs generalizing bytes with
  | self => exact ⟨bytes, hwrite, List.infix_rfl⟩
  | @nested body attributes outer hmem _ ih =>
    obtain ⟨length, contents, -, hcontents, rfl⟩ := write_eq_ok.mp hwrite
    simp only [writeContents, bind_eq_ok, pure_eq_ok] at hcontents
    obtain ⟨front, -, list, hlist, rfl⟩ := hcontents
    obtain ⟨count, all, -, hall, rfl⟩ := writeTable_eq_ok.mp hlist
    obtain ⟨outerBytes, houter, hin⟩ := exists_write_of_mem hall hmem
    obtain ⟨piece, hpiece, hpieceIn⟩ := ih houter
    -- The attributes of a method body are the end of what is written for it.
    have hend : all <:+ headerBytes body.name length ++ (front ++ (Bytes.ofU2 count ++ all)) :=
      (List.suffix_append _ all).trans <| (List.suffix_append front _).trans <|
        List.suffix_append _ _
    exact ⟨piece, hpiece, (hpieceIn.trans hin).trans hend.isInfix⟩

/-! ## Sums of lengths -/

/-- The lengths of attributes are summed up if each of them has one. -/
theorem totalLengthFrom_eq_ok_iff {attributes : List Attribute} {total sum : Nat} :
    totalLengthFrom total attributes = .ok sum ↔
      ∃ lengths : List UInt32, attributes.map Attribute.length = lengths.map .ok ∧
        sum = total + (lengths.map fun length => headerLength + length.toNat).sum := by
  induction attributes generalizing total with
  | nil =>
    rw [totalLengthFrom, Except.ok.injEq]
    constructor
    · rintro rfl
      exact ⟨[], rfl, rfl⟩
    · rintro ⟨lengths, hlengths, rfl⟩
      obtain rfl := List.map_eq_nil_iff.mp hlengths.symm
      rfl
  | cons first others ih =>
    simp only [totalLengthFrom, bind_eq_ok, ih]
    constructor
    · rintro ⟨length, hlength, lengths, hlengths, rfl⟩
      refine ⟨length :: lengths, ?_, ?_⟩
      · rw [List.map_cons, List.map_cons, hlength, hlengths]
      · rw [List.map_cons, List.sum_cons, Nat.add_assoc]
    · rintro ⟨lengths, hlengths, rfl⟩
      obtain ⟨length, others', rfl, hlength, hothers⟩ := List.map_eq_cons_iff.mp hlengths.symm
      refine ⟨length, hlength.symm, others', hothers.symm, ?_⟩
      rw [List.map_cons, List.sum_cons, ← Nat.add_assoc]

/-! ## Frames -/

/-- Some bytes are framed by the length of an attribute, and if it is a method body, so is its code
among them. -/
structure IsFramed (attr : Attribute) (bytes : Bytes) (length : UInt32) : Prop where
  /-- This is the length that is worked out for the attribute. -/
  length_eq : attr.length = .ok length
  /-- There are as many bytes behind the header as the length says. -/
  length_bytes : bytes.length = headerLength + length.toNat
  /-- The length stands in the four bytes behind the index of the name. -/
  declared : (bytes.drop 2).take 4 = Bytes.ofU4 length
  /-- The length of a method body is made up of twelve bytes, eight for each handler, those of the
  code, and the attributes with their headers. -/
  length_code : ∀ body attributes, attr = .code body attributes →
    ∃ lengths : List UInt32, attributes.map Attribute.length = lengths.map .ok ∧
      length.toNat = 12 + 8 * body.handlers.length +
        (Instruction.codeBytes body.instructions).length +
        (lengths.map fun nested => headerLength + nested.toNat).sum
  /-- Behind the header and the two limits of a method body stands the number of bytes of its code,
  and behind the number the code. -/
  declared_code : ∀ body attributes, attr = .code body attributes →
    ∃ codeLength : UInt32, (bytes.drop (headerLength + 4)).take 4 = Bytes.ofU4 codeLength ∧
      codeLength.toNat = (Instruction.codeBytes body.instructions).length ∧
      Instruction.codeBytes body.instructions <+: bytes.drop (headerLength + 8)

/-- Four bytes can say the number of bytes of code that no limit forbids. -/
theorem toNat_codeLength {body : MethodBody} {start : Nat}
    (h : body.instructions.FilledFrom start) (hle : body.codeLength ≤ MethodBody.maxCodeLength) :
    (UInt32.ofNat body.codeLength).toNat = (Instruction.codeBytes body.instructions).length := by
  rw [Instruction.length_codeBytes h]
  unfold MethodBody.maxCodeLength at hle
  exact UInt32.toNat_ofNat_of_lt (by rw [UInt32.size]; omega)

/-- An attribute that is written is framed by its length. -/
theorem exists_isFramed_of_write (h : attr.IsLaidOut) (hwrite : attr.write = .ok bytes) :
    ∃ length, attr.IsFramed bytes length := by
  obtain ⟨length, contents, hlength, hcontents, hlen, rfl⟩ := exists_contents_of_write h hwrite
  refine ⟨length, hlength, ?_, rfl, ?_, ?_⟩
  · rw [List.length_append, length_headerBytes, hlen]
  · rintro body attributes rfl
    obtain ⟨-, total, htotal, hsum⟩ := length_code_eq_ok.mp hlength
    obtain ⟨lengths, hlengths, rfl⟩ := totalLengthFrom_eq_ok_iff.mp htotal
    obtain ⟨start, hfilled⟩ := h body attributes .self
    refine ⟨lengths, hlengths, ?_⟩
    rw [Instruction.length_codeBytes hfilled, hsum, Nat.zero_add, MethodBody.codeLength]
  · rintro body attributes rfl
    obtain ⟨hle, -⟩ := length_code_eq_ok.mp hlength
    obtain ⟨start, hfilled⟩ := h body attributes .self
    simp only [writeContents, writeBody, bind_eq_ok, pure_eq_ok] at hcontents
    obtain ⟨_, ⟨handlers, -, rfl⟩, list, -, rfl⟩ := hcontents
    refine ⟨UInt32.ofNat body.codeLength, rfl, toNat_codeLength hfilled hle, handlers ++ list, ?_⟩
    simp only [List.append_assoc]
    rfl

/-- Whatever hangs on an attribute that is written stands among its bytes, as many bytes as its own
length says; the length is declared in its header and, for a method body, made up of the lengths of
its parts. -/
theorem isFramed_of_write (h : attr.IsLaidOut) (hwrite : attr.write = .ok bytes)
    (hoccurs : Occurs found attr) :
    ∃ piece length, piece <:+: bytes ∧ found.write = .ok piece ∧ found.IsFramed piece length := by
  obtain ⟨piece, hpiece, hin⟩ := exists_write_of_occurs hwrite hoccurs
  obtain ⟨length, hframed⟩ := exists_isFramed_of_write (h.of_occurs hoccurs) hpiece
  exact ⟨piece, length, hin, hpiece, hframed⟩

/-- The code of a method that returns the object it is called on. -/
def returnThis : OffsetArray Instruction :=
  .ofList [⟨.aload0, [], by decide, by decide⟩, ⟨.areturn, [], by decide, by decide⟩]

/-- The body of a method that returns the object it is called on, with a handler that is never
reached. -/
def guardedReturn : MethodBody :=
  { name := 1, maxStack := 1, maxLocals := 1, instructions := returnThis,
    handlers := [⟨0, 1, 1, none⟩] }

/-- A method body with the line of its code, among the attributes of another. -/
def nestedReturn : Attribute :=
  .code guardedReturn
    [.lineNumberTable 2 [⟨0, 7⟩], .code guardedReturn [.lineNumberTable 2 [⟨0, 7⟩]]]

/-- The method body that hangs on another is framed by a length of thirty-four bytes. -/
theorem isFramed_nestedReturn :
    nestedReturn.IsLaidOut ∧
      ∃ bytes piece length, nestedReturn.write = .ok bytes ∧ bytes.length = 80 ∧
        piece <:+: bytes ∧
        IsFramed (.code guardedReturn [.lineNumberTable 2 [⟨0, 7⟩]]) piece length ∧
        length = 34 := by
  have hlaid : nestedReturn.IsLaidOut := by
    intro body attributes hoccurs
    obtain ⟨rfl, -⟩ | ⟨rfl, -⟩ : body = guardedReturn ∧ _ ∨ body = guardedReturn ∧ _ := by
      simpa [nestedReturn, occurs_code_iff, occurs_iff_of_not_code] using hoccurs
    all_goals exact ⟨0, OffsetArray.filledFrom_ofList _⟩
  have hoccurs : Occurs (.code guardedReturn [.lineNumberTable 2 [⟨0, 7⟩]]) nestedReturn :=
    .nested (List.mem_cons_of_mem _ List.mem_cons_self) .self
  obtain ⟨piece, length, hin, -, hframed⟩ := isFramed_of_write hlaid rfl hoccurs
  refine ⟨hlaid, _, piece, length, rfl, rfl, hin, hframed, ?_⟩
  exact (Except.ok.inj hframed.length_eq).symm

end JavaClass.Attribute
