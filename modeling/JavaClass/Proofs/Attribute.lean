import JavaClass.Attribute.Format
import JavaClass.Proofs.ConstantPool
import JavaClass.Proofs.Instruction

/-!
# Attributes and their lengths

An attribute is written as its header and its contents. The length in the header is worked out from
the attribute, not from its contents, and is nonetheless the number of bytes of these.

- `Attribute.induction`: what holds of method bodies if it holds of their attributes.
- `Attribute.Occurs`: an attribute hangs on another at some depth.
- `Attribute.write_eq_ok`: an attribute is written as its header and its contents.
- `Attribute.length_eq_ok_iff`: the length of an attribute is the number of bytes of its contents.
-/

namespace JavaClass.Attribute

/-! ## Nested attributes -/

/-- What holds of attributes without attributes, and of every method body of whose attributes it
holds, holds of all attributes. -/
@[elab_as_elim]
theorem induction {motive : Attribute → Prop}
    (sourceFile : ∀ name file, motive (.sourceFile name file))
    (constantValue : ∀ name value, motive (.constantValue name value))
    (lineNumberTable : ∀ name lines, motive (.lineNumberTable name lines))
    (code : ∀ body attributes, (∀ attr ∈ attributes, motive attr) →
      motive (.code body attributes)) :
    ∀ attr, motive attr
  | .sourceFile name file => sourceFile name file
  | .constantValue name value => constantValue name value
  | .lineNumberTable name lines => lineNumberTable name lines
  | .code body attributes =>
    code body attributes fun attr _ =>
      induction sourceFile constantValue lineNumberTable code attr

/-- An attribute is another one, or hangs on it at some depth. -/
inductive Occurs (found : Attribute) : Attribute → Prop where
  /-- An attribute occurs in itself. -/
  | self : Occurs found found
  /-- What occurs in an attribute of a method body occurs in the method body. -/
  | nested {body : MethodBody} {attributes : List Attribute} {outer : Attribute}
    (hmem : outer ∈ attributes) (h : Occurs found outer) : Occurs found (.code body attributes)

/-- In an attribute that is no method body occurs nothing but itself. -/
theorem occurs_iff_of_not_code {found attr : Attribute}
    (h : ∀ body attributes, attr ≠ .code body attributes) :
    Occurs found attr ↔ found = attr := by
  constructor
  · rintro (_ | _)
    · rfl
    · exact absurd rfl (h _ _)
  · rintro rfl
    exact .self

/-- In a method body occurs itself and what occurs in its attributes. -/
theorem occurs_code_iff {found : Attribute} {body : MethodBody} {attributes : List Attribute} :
    Occurs found (.code body attributes) ↔
      found = .code body attributes ∨ ∃ outer ∈ attributes, Occurs found outer := by
  constructor
  · rintro (_ | ⟨hmem, h⟩)
    · exact .inl rfl
    · exact .inr ⟨_, hmem, h⟩
  · rintro (rfl | ⟨outer, hmem, h⟩)
    · exact .self
    · exact .nested hmem h

/-- The code of all method bodies in an attribute was laid out one instruction after another. -/
def IsLaidOut (attr : Attribute) : Prop :=
  ∀ body attributes, Occurs (.code body attributes) attr →
    ∃ start, body.instructions.FilledFrom start

/-! ## Contents -/

/-- The bytes of an attribute behind its header. -/
def writeContents : Attribute → Except Error Bytes
  | sourceFile _ file => .ok (Bytes.ofU2 file)
  | constantValue _ value => .ok (Bytes.ofU2 value)
  | lineNumberTable _ lines =>
    writeTable "line numbers" (fun entry => .ok entry.toBytes) lines
  | code body attributes => do return (← writeBody body) ++ (← writeList attributes)

/-- The bytes of attributes stand behind those that were held back. -/
theorem writeEachOnto_eq (written : List Bytes) (attributes : List Attribute) :
    writeEachOnto written attributes =
      (writeAll write attributes).map (written.reverse.flatten ++ ·) := by
  induction attributes generalizing written with
  | nil => simp [writeEachOnto, Except.map]
  | cons first others ih =>
    rw [writeEachOnto, writeAll_cons]
    cases first.write with
    | error cause => rfl
    | ok bytes =>
      change writeEachOnto (bytes :: written) others = _
      rw [ih]
      cases writeAll write others with
      | error cause => rfl
      | ok more =>
        simp only [List.reverse_cons, List.flatten_concat, List.append_assoc]
        rfl

/-- The attributes of a method body are written as any entries are. -/
theorem writeEachOnto_nil (attributes : List Attribute) :
    writeEachOnto [] attributes = writeAll write attributes := by
  rw [writeEachOnto_eq]
  cases writeAll write attributes <;> rfl

/-- An attribute is written as its header and its contents. -/
theorem write_eq_ok {attr : Attribute} {bytes : Bytes} :
    attr.write = .ok bytes ↔
      ∃ length contents, attr.length = .ok length ∧ attr.writeContents = .ok contents ∧
        bytes = headerBytes attr.name length ++ contents := by
  cases attr with
  | sourceFile name file | constantValue name value | lineNumberTable name lines =>
    simp only [write, writeContents, bind_eq_ok, pure_eq_ok, Attribute.name, Except.ok.injEq,
      exists_eq_left', eq_comm (b := bytes), exists_and_left]
  | code body attributes =>
    simp only [write, writeContents, bind_eq_ok, writeList, writeTable, writeEachOnto_nil,
      pure_eq_ok, Attribute.name]
    constructor
    · rintro ⟨length, hlength, front, hfront, count, hcount, nested, hnested, rfl⟩
      refine ⟨length, _, hlength, ⟨front, hfront, _, ⟨count, hcount, _, hnested, rfl⟩, rfl⟩, ?_⟩
      simp only [List.append_assoc]
    · rintro ⟨length, _, hlength, ⟨front, hfront, _, ⟨count, hcount, nested, hnested, rfl⟩, rfl⟩,
        rfl⟩
      refine ⟨length, hlength, front, hfront, count, hcount, nested, hnested, ?_⟩
      simp only [List.append_assoc]

/-! ## Lengths -/

@[simp]
theorem length_headerBytes (name : ConstantIndex) (length : UInt32) :
    (headerBytes name length).length = headerLength := rfl

/-- An entry of a line number table has four bytes. -/
theorem length_toBytes_line (line : LineNumber) : line.toBytes.length = 4 := rfl

/-- An exception handler has eight bytes. -/
theorem length_toBytes_handler (handler : ExceptionHandler) : handler.toBytes.length = 8 := rfl

/-- Entries that all have the same number of bytes have so many times as many. -/
theorem length_flatMap_of_const {α : Type} {toBytes : α → Bytes} {size : Nat}
    (h : ∀ entry, (toBytes entry).length = size) (entries : List α) :
    (entries.flatMap toBytes).length = size * entries.length := by
  simp [List.length_flatMap, h, Nat.mul_comm]

/-- A table of entries that all have the same number of bytes has so many times as many, and two for
its count. -/
theorem length_writeTable {α : Type} {what : String} {toBytes : α → Bytes} {size : Nat}
    (h : ∀ entry, (toBytes entry).length = size) {entries : List α} {bytes : Bytes}
    (hwrite : writeTable what (fun entry => .ok (toBytes entry)) entries = .ok bytes) :
    bytes.length = 2 + size * entries.length := by
  obtain ⟨count, body, -, hbody, rfl⟩ := writeTable_eq_ok.mp hwrite
  rw [writeAll_ok, Except.ok.injEq] at hbody
  subst hbody
  rw [List.length_append, Bytes.length_ofU2, length_flatMap_of_const h]

/-- The front of a method body has eight bytes, the code, a count and eight bytes for each
handler. -/
theorem length_writeBody {body : MethodBody} {bytes : Bytes} {start : Nat}
    (h : body.instructions.FilledFrom start) (hwrite : writeBody body = .ok bytes) :
    bytes.length = 10 + 8 * body.handlers.length + body.codeLength := by
  simp only [writeBody, bind_eq_ok, pure_eq_ok] at hwrite
  obtain ⟨handlers, hhandlers, rfl⟩ := hwrite
  have hlen := length_writeTable length_toBytes_handler hhandlers
  simp only [List.length_append, Bytes.length_ofU2, Bytes.length_ofU4, hlen,
    Instruction.length_codeBytes h, MethodBody.codeLength]
  omega

/-- If the lengths of attributes are the numbers of bytes of their contents, the sum of them with
their headers is the number of bytes of the attributes. -/
theorem totalLengthFrom_of_writeAll {attributes : List Attribute} {bytes : Bytes} (total : Nat)
    (h : ∀ attr ∈ attributes, ∀ bytes, attr.write = .ok bytes →
      ∃ length, attr.length = .ok length ∧ bytes.length = headerLength + length.toNat)
    (hwrite : writeAll write attributes = .ok bytes) :
    totalLengthFrom total attributes = .ok (total + bytes.length) := by
  induction attributes generalizing total bytes with
  | nil =>
    cases hwrite
    rfl
  | cons first others ih =>
    obtain ⟨head, tail, hhead, htail, rfl⟩ := writeAll_cons_eq_ok.mp hwrite
    -- The first attribute adds its header and its length to the sum of the others.
    obtain ⟨length, hlength, hlen⟩ := h first List.mem_cons_self head hhead
    rw [totalLengthFrom, bind_eq_ok]
    refine ⟨length, hlength, ?_⟩
    rw [ih _ (fun attr hmem => h attr (List.mem_cons_of_mem first hmem)) htail, ← hlen,
      List.length_append, Nat.add_assoc]

/-- A method body has a length if its code is not too long and four bytes can say the length. -/
theorem length_code_eq_ok {body : MethodBody} {attributes : List Attribute} {length : UInt32} :
    (code body attributes).length = .ok length ↔
      body.codeLength ≤ MethodBody.maxCodeLength ∧
        ∃ total, totalLengthFrom 0 attributes = .ok total ∧
          length.toNat = 12 + 8 * body.handlers.length + body.codeLength + total := by
  simp only [Attribute.length, bodyLength]
  by_cases hlong : body.codeLength > MethodBody.maxCodeLength
  · rw [if_pos hlong]
    constructor
    · intro h
      cases h
    · rintro ⟨hle, -⟩
      omega
  · rw [if_neg hlong]
    simp only [bind_eq_ok, count32_eq_ok]
    constructor
    · rintro ⟨total, htotal, hlength⟩
      exact ⟨Nat.le_of_not_lt hlong, total, htotal, hlength⟩
    · rintro ⟨-, total, htotal, hlength⟩
      exact ⟨total, htotal, hlength⟩

/-- No method can have more code than an attribute that is a method body has. -/
def HasShortCode (attr : Attribute) : Prop :=
  ∀ body attributes, attr = .code body attributes → body.codeLength ≤ MethodBody.maxCodeLength

/-- An attribute whose contents can be written has a length exactly if its code is not too long, and
the length is the number of bytes of the contents. -/
theorem length_eq_ok_iff {attr : Attribute} {contents : Bytes} (h : attr.IsLaidOut)
    (hcontents : attr.writeContents = .ok contents) {length : UInt32} :
    attr.length = .ok length ↔ attr.HasShortCode ∧ length.toNat = contents.length := by
  induction attr using induction generalizing contents length with
  | sourceFile name file | constantValue name value =>
    cases hcontents
    constructor
    · rintro ⟨⟩
      refine ⟨?_, rfl⟩
      rintro _ _ ⟨⟩
    · rintro ⟨-, hlength⟩
      have htwo : length = 2 := UInt32.toNat_inj.mp hlength
      rw [Attribute.length, htwo]
  | lineNumberTable name lines =>
    have hshort : HasShortCode (.lineNumberTable name lines) := by rintro _ _ ⟨⟩
    rw [Attribute.length, count32_eq_ok, length_writeTable length_toBytes_line hcontents]
    exact (and_iff_right hshort).symm
  | code body attributes ih =>
    simp only [writeContents, bind_eq_ok, pure_eq_ok, writeList, writeTable_eq_ok] at hcontents
    obtain ⟨front, hfront, _, ⟨count, nested, -, hnested, rfl⟩, rfl⟩ := hcontents
    obtain ⟨start, hfilled⟩ := h body attributes .self
    have hshort : HasShortCode (.code body attributes) ↔
        body.codeLength ≤ MethodBody.maxCodeLength := by
      constructor
      · intro h
        exact h body attributes rfl
      · rintro h _ _ ⟨⟩
        exact h
    -- The attributes of the body have the lengths that are summed up for it.
    have htotal : totalLengthFrom 0 attributes = .ok (0 + nested.length) := by
      apply totalLengthFrom_of_writeAll 0 _ hnested
      intro attr hmem bytes hbytes
      obtain ⟨length, contents, hlength, hcontents, rfl⟩ := write_eq_ok.mp hbytes
      have hlaid : attr.IsLaidOut :=
        fun body attributes hoccurs => h body attributes (.nested hmem hoccurs)
      refine ⟨length, hlength, ?_⟩
      rw [List.length_append, length_headerBytes, ((ih attr hmem hlaid hcontents).mp hlength).2]
    rw [length_code_eq_ok, hshort, htotal]
    simp only [Except.ok.injEq, exists_eq_left', List.length_append, Bytes.length_ofU2,
      length_writeBody hfilled hfront]
    constructor
    · rintro ⟨hle, hlength⟩
      exact ⟨hle, by omega⟩
    · rintro ⟨hle, hlength⟩
      exact ⟨hle, by omega⟩

/-- The length of an attribute is the number of bytes of its contents. -/
theorem length_write {attr : Attribute} {bytes : Bytes} (h : attr.IsLaidOut)
    (hwrite : attr.write = .ok bytes) :
    ∃ length, attr.length = .ok length ∧ bytes.length = headerLength + length.toNat := by
  obtain ⟨length, contents, hlength, hcontents, rfl⟩ := write_eq_ok.mp hwrite
  refine ⟨length, hlength, ?_⟩
  rw [List.length_append, length_headerBytes, ((length_eq_ok_iff h hcontents).mp hlength).2]

/-- An attribute has a length if its contents can be written, four bytes can say how many they are,
and its code is not too long. -/
theorem exists_length_of_writeContents {attr : Attribute} {contents : Bytes} (h : attr.IsLaidOut)
    (hshort : attr.HasShortCode) (hcontents : attr.writeContents = .ok contents)
    (hlt : contents.length < 0x100000000) :
    ∃ length, attr.length = .ok length ∧ length.toNat = contents.length := by
  have htoNat : (UInt32.ofNat contents.length).toNat = contents.length :=
    UInt32.toNat_ofNat_of_lt hlt
  exact ⟨_, (length_eq_ok_iff h hcontents).mpr ⟨hshort, htoNat⟩, htoNat⟩

/-- An attribute that is written has its contents behind its header, and as many of them as the
header says. -/
theorem exists_contents_of_write {attr : Attribute} {bytes : Bytes} (h : attr.IsLaidOut)
    (hwrite : attr.write = .ok bytes) :
    ∃ length contents, attr.length = .ok length ∧ attr.writeContents = .ok contents ∧
      contents.length = length.toNat ∧ bytes = headerBytes attr.name length ++ contents := by
  obtain ⟨length, contents, hlength, hcontents, rfl⟩ := write_eq_ok.mp hwrite
  have hlen := ((length_eq_ok_iff h hcontents).mp hlength).2
  exact ⟨length, contents, hlength, hcontents, hlen.symm, rfl⟩

end JavaClass.Attribute
