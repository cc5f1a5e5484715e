import JavaClass.Proofs.Attribute.Length
import JavaClass.Proofs.Writing.Layout

/-!
# How attributes stand in bytes

What the format demands of the bytes of an attribute: every table in it has the count of its
entries, and every length the number of bytes that it is about, at whatever depth. The number of
bytes itself is a sum over the parts of an attribute, without a limit.

- `Attribute.size`: the number of bytes that the contents of an attribute take up.
- `Attribute.HasLayout`: bytes that are an attribute.
- `Attribute.hasLayout_of_write`: what is written has this layout.
- `Attribute.toNat_of_length`: the length of an attribute is the number of bytes of its contents.
-/

namespace JavaClass.Attribute

variable {attr : Attribute} {bytes : Bytes}

/-! ## Sizes -/

mutual

/-- The number of bytes that the contents of an attribute take up, however many they are. -/
def size : Attribute → Nat
  | sourceFile .. | constantValue .. => 2
  | lineNumberTable _ lines => 2 + 4 * lines.length
  | code body attributes =>
    12 + 8 * body.handlers.length + (Instruction.codeBytes body.instructions).length +
      totalSize attributes

/-- The number of bytes that some attributes take up with their headers. -/
def totalSize : List Attribute → Nat
  | [] => 0
  | first :: others => headerLength + first.size + totalSize others

end

/-- If the lengths of attributes are their sizes, the sum of the lengths is that of the sizes. -/
theorem sum_lengths {attributes : List Attribute} {lengths : List UInt32}
    (hlengths : attributes.map Attribute.length = lengths.map .ok)
    (h : ∀ attr ∈ attributes, ∀ length, attr.length = .ok length → length.toNat = attr.size) :
    (lengths.map fun length => headerLength + length.toNat).sum = totalSize attributes := by
  induction attributes generalizing lengths with
  | nil =>
    obtain rfl := List.map_eq_nil_iff.mp hlengths.symm
    rfl
  | cons first others ih =>
    obtain ⟨length, others', rfl, hlength, hothers⟩ := List.map_eq_cons_iff.mp hlengths.symm
    obtain ⟨hfirst, hrest⟩ := List.forall_mem_cons.mp h
    rw [List.map_cons, List.sum_cons, ih hothers.symm hrest, hfirst length hlength.symm, totalSize]

/-- The length that is worked out for an attribute is the number of bytes that its contents take
up. -/
theorem toNat_of_length (h : attr.IsLaidOut) {length : UInt32}
    (hlength : attr.length = .ok length) : length.toNat = attr.size := by
  induction attr using induction generalizing length with
  | sourceFile name file | constantValue name value =>
    cases hlength
    rfl
  | lineNumberTable name lines => exact count32_eq_ok.mp hlength
  | code body attributes ih =>
    obtain ⟨-, total, htotal, hsum⟩ := length_code_eq_ok.mp hlength
    obtain ⟨lengths, hlengths, rfl⟩ := totalLengthFrom_eq_ok_iff.mp htotal
    obtain ⟨start, hfilled⟩ := h body attributes .self
    -- No length was cut short, so the sum of the lengths is that of the sizes.
    have htotalSize := sum_lengths hlengths fun attr hmem _ hlength =>
      ih attr hmem (h.of_occurs (.nested hmem .self)) hlength
    rw [hsum, htotalSize, size, Instruction.length_codeBytes hfilled, MethodBody.codeLength,
      Nat.zero_add]

/-! ## Layout -/

/-- The bytes of the contents of a method body. -/
def bodyBytes (body : MethodBody) (codeLength handlers attributes : Bytes) : Bytes :=
  Bytes.ofU2 body.maxStack ++ Bytes.ofU2 body.maxLocals ++ codeLength ++
    Instruction.codeBytes body.instructions ++ handlers ++ attributes

/-- Some bytes are an attribute: the index of its name, the number of bytes of its contents, and the
contents, in which all counts and lengths are those of what they stand in front of. -/
inductive HasLayout : Attribute → Bytes → Prop where
  /-- The contents are the index of the file. -/
  | sourceFile {name file : ConstantIndex} {length : Bytes} (hlength : length.Says 4 2) :
    HasLayout (.sourceFile name file) (Bytes.ofU2 name ++ length ++ Bytes.ofU2 file)
  /-- The contents are the index of the value. -/
  | constantValue {name value : ConstantIndex} {length : Bytes} (hlength : length.Says 4 2) :
    HasLayout (.constantValue name value) (Bytes.ofU2 name ++ length ++ Bytes.ofU2 value)
  /-- The contents are a table of line numbers. -/
  | lineNumberTable {name : ConstantIndex} {lines : List LineNumber} {length table : Bytes}
    (hlength : length.Says 4 table.length)
    (hlines : IsTable (fun line piece => piece = line.toBytes) lines table) :
    HasLayout (.lineNumberTable name lines) (Bytes.ofU2 name ++ length ++ table)
  /-- The contents are two limits, the number of bytes of the code, the code, and the tables of the
  handlers and of the attributes. -/
  | code {body : MethodBody} {attributes : List Attribute}
    {length codeLength handlers nested : Bytes}
    (hlength : length.Says 4 (bodyBytes body codeLength handlers nested).length)
    (hcodeLength : codeLength.Says 4 (Instruction.codeBytes body.instructions).length)
    (hhandlers : IsTable (fun handler piece => piece = handler.toBytes) body.handlers handlers)
    (hnested : IsTable HasLayout attributes nested) :
    HasLayout (.code body attributes)
      (Bytes.ofU2 body.name ++ length ++ bodyBytes body codeLength handlers nested)

/-- An attribute that is written has the layout that the format demands. -/
theorem hasLayout_of_write (h : attr.IsLaidOut) (hwrite : attr.write = .ok bytes) :
    attr.HasLayout bytes := by
  induction attr using induction generalizing bytes with
  | sourceFile name file | constantValue name value =>
    cases hwrite
    constructor
    exact Bytes.says_ofU4 2
  | lineNumberTable name lines =>
    obtain ⟨length, contents, -, hcontents, hlength, rfl⟩ := exists_contents_of_write h hwrite
    exact .lineNumberTable (hlength ▸ Bytes.says_ofU4 length) (isTable_of_writeTable_ok hcontents)
  | code body attributes ih =>
    obtain ⟨length, contents, hlength, hcontents, hlen, rfl⟩ := exists_contents_of_write h hwrite
    obtain ⟨start, hfilled⟩ := h body attributes .self
    obtain ⟨hle, -⟩ := length_code_eq_ok.mp hlength
    simp only [writeContents, writeBody, bind_eq_ok, pure_eq_ok] at hcontents
    obtain ⟨_, ⟨handlers, hhandlers, rfl⟩, nested, hnested, rfl⟩ := hcontents
    -- The attributes of the body have their layouts by induction, as what hangs on it was laid out.
    have htable : IsTable HasLayout attributes nested :=
      isTable_of_writeTable hnested fun attr hmem piece hpiece =>
        ih attr hmem (h.of_occurs (.nested hmem .self)) hpiece
    exact .code (hlen ▸ Bytes.says_ofU4 length) (toNat_codeLength hfilled hle ▸ Bytes.says_ofU4 _)
      (isTable_of_writeTable_ok hhandlers) htable

end JavaClass.Attribute
