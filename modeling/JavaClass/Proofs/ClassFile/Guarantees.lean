import JavaClass.Proofs.ClassFile.Delimited
import JavaClass.Proofs.Instruction.Decoding

/-!
# What a reader of class files guarantees

Whatever is done with a class file that was read, it need not be checked again: its indices lead to
constants of the kinds that they are used for, at every depth of its attributes, and its code is
what stands in the bytes that it was read from.

- `Attribute.StandsIn`: the code of an attribute stands in some bytes.
- `Attribute.yieldsFromInput_readList`: attributes are read with the code that stands in the input.
- `ClassFile.wellFormed_of_ofBytes`: a class file that was read is well-formed.
- `ClassFile.guarantees_of_ofBytes`: all that is known of a class file that was read.
-/

namespace JavaClass

/-! ## Code in the input -/

namespace Attribute

variable {pool : ConstantPool} {attr : Attribute} {input rest bytes : Bytes}
  {reports : List Diagnostic}

/-- The code of every method body in an attribute stands in some bytes. -/
def StandsIn (bytes : Bytes) (attr : Attribute) : Prop :=
  ∀ body attributes, Occurs (.code body attributes) attr →
    Instruction.codeBytes body.instructions <:+: bytes

/-- What stands in a part of some bytes stands in all of them. -/
theorem StandsIn.mono {part : Bytes} (h : attr.StandsIn part) (hpart : part <:+: bytes) :
    attr.StandsIn bytes :=
  fun body attributes hoccurs => (h body attributes hoccurs).trans hpart

/-- The code of a method body stands in the bytes of the body. -/
theorem codeBytes_infix_writeBody {body : MethodBody} {front : Bytes}
    (h : writeBody body = .ok front) : Instruction.codeBytes body.instructions <:+: front := by
  simp only [writeBody, bind_eq_ok, pure_eq_ok] at h
  obtain ⟨handlers, -, rfl⟩ := h
  exact ⟨_, handlers, rfl⟩

/-- A reader of attributes yields code that stands in its input. -/
def YieldsFromInput (reader : Reader (List Attribute)) : Prop :=
  ∀ ⦃input reports attributes rest⦄, reader.Reads input reports attributes rest →
    ∀ attr ∈ attributes, attr.StandsIn input

/-- The code of an attribute stands in what the attribute is read from, if that of the attributes in
it does. -/
theorem standsIn_of_reads_readWith {nested : Nat → Reader (List Attribute)}
    (hnested : ∀ length, YieldsFromInput (nested length))
    (h : (readWith pool nested).Reads input reports (some attr) rest) : attr.StandsIn input := by
  obtain ⟨header, contents, -, -, -, rfl, ⟨-, hnone, -⟩ | ⟨_, before, unused, hsome, -, -, -,
    hcontents, -⟩⟩ := reads_readWith.mp h
  · cases hnone
  · cases hsome
    have hinput : contents <:+: headerBytes header.name header.length ++ contents ++ rest :=
      ⟨_, rest, rfl⟩
    intro body attributes hoccurs
    cases attr with
    | code outer nestedAttributes =>
      obtain ⟨front, between, -, hfront, rfl, hread⟩ := hcontents
      -- The code is that of the body itself, or that of an attribute behind it.
      obtain heq | ⟨inner, hmem, hinner⟩ := occurs_code_iff.mp hoccurs
      · cases heq
        exact (codeBytes_infix_writeBody hfront).trans
          ((List.infix_append [] front between).trans hinput)
      · have hstands := hnested _ hread inner hmem body attributes hinner
        exact hstands.trans ((List.suffix_append front between).isInfix.trans hinput)
    | _ =>
      rw [occurs_iff_of_not_code (by simp)] at hoccurs
      cases hoccurs

theorem yieldsFromInput_readListWith {nested : Nat → Reader (List Attribute)}
    (hnested : ∀ length, YieldsFromInput (nested length)) :
    YieldsFromInput (readListWith pool nested) := by
  intro input reports attributes rest h attr hmem
  obtain ⟨count, results, between, rfl, hresults, rfl⟩ := reads_readListWith.mp h
  obtain ⟨result, hmem, rfl⟩ := List.mem_filterMap.mp hmem
  obtain ⟨start, before, after, hstart, hread⟩ :=
    (delimited_readWith pool nested).exists_of_mem_times hresults hmem
  refine (standsIn_of_reads_readWith hnested hread).mono ?_
  exact (hstart.trans (List.suffix_append ..)).isInfix

/-- Attributes are read with the code that stands in the input. -/
theorem yieldsFromInput_readList (pool : ConstantPool) : YieldsFromInput (readList pool) := by
  refine yieldsFromInput_readListWith fun length => ?_
  refine readNested_induction (motive := YieldsFromInput) ?_ ?_ length
  · intro cause input reports attributes rest h
    exact absurd h Reader.reads_fail
  · intro nested ih
    exact yieldsFromInput_readListWith ih

end Attribute

/-! ## Members -/

/-- Fields and methods that are read have strings at their indices. Their attributes are
well-formed, with the code that stands in the input. -/
theorem Member.sound_of_reads_table {declaration : Declaration} {pool : ConstantPool}
    (hpool : pool.Canonical) {input rest : Bytes} {reports : List Diagnostic}
    {members : List (Member declaration)}
    (h : (Reader.table (Member.read pool)).Reads input reports members rest) :
    ∀ member ∈ members, member.IsNamed pool ∧
      ∀ attr ∈ member.attributes, attr.WellFormed pool ∧ attr.StandsIn input := by
  intro member hmem
  obtain ⟨start, before, after, hstart, hread⟩ :=
    (Member.delimited_read pool).exists_of_mem_table h hmem
  obtain ⟨hnamed, between, rfl, hattributes⟩ := Member.reads_read.mp hread
  refine ⟨hnamed, fun attr hattr => ?_⟩
  have hinput : between <:+: input := ((List.suffix_append ..).trans hstart).isInfix
  exact ⟨Attribute.yieldsWellFormed_readList hpool hattributes attr hattr,
    (Attribute.yieldsFromInput_readList pool hattributes attr hattr).mono hinput⟩

namespace ClassFile

variable {file : ClassFile} {bytes rest : Bytes} {reports : List Diagnostic}

/-- A class file that was read is well-formed, and its code stands in what it was read from. -/
theorem wellFormed_of_ofBytes (h : ofBytes bytes = ⟨reports, .ok (file, rest)⟩) :
    file.WellFormed ∧ ∀ attr, file.HasAttribute attr → attr.StandsIn bytes := by
  obtain ⟨hfront, front, afterFront, _, afterFields, _, afterMethods, _, -, rfl, hfields, hmethods,
    hattributes, -⟩ := reads_read.mp h
  have hpool := hfront.constants
  have hsoundFields := Member.sound_of_reads_table hpool hfields
  have hsoundMethods := Member.sound_of_reads_table hpool hmethods
  have hsoundAttributes := Attribute.yieldsWellFormed_readList hpool hattributes
  -- Every section is an end of what the sections before it leave.
  have hmethodsIn : afterFields <:+ front ++ afterFront :=
    ((Member.delimited_read _).table.suffix hfields).trans (List.suffix_append ..)
  have hattributesIn : afterMethods <:+ front ++ afterFront :=
    ((Member.delimited_read _).table.suffix hmethods).trans hmethodsIn
  constructor
  · refine wellFormed_of_attributes hfront (fun field hfield => (hsoundFields field hfield).1)
      (fun method hmethod => (hsoundMethods method hmethod).1) ?_
    rintro attr (⟨field, hfield, hattr⟩ | ⟨method, hmethod, hattr⟩ | hattr)
    · exact ((hsoundFields field hfield).2 attr hattr).1
    · exact ((hsoundMethods method hmethod).2 attr hattr).1
    · exact hsoundAttributes attr hattr
  · rintro attr (⟨field, hfield, hattr⟩ | ⟨method, hmethod, hattr⟩ | hattr)
    · exact ((hsoundFields field hfield).2 attr hattr).2.mono (List.suffix_append ..).isInfix
    · exact ((hsoundMethods method hmethod).2 attr hattr).2.mono hmethodsIn.isInfix
    · exact (Attribute.yieldsFromInput_readList _ hattributes attr hattr).mono
        hattributesIn.isInfix

/-- The number of slots of the pool, and one more, is declared behind the magic number and the
version. -/
theorem exists_count_of_ofBytes (h : ofBytes bytes = ⟨reports, .ok (file, rest)⟩) :
    ∃ front count behind, front.length = 8 ∧ bytes = front ++ Bytes.ofU2 count ++ behind ∧
      file.constants.size + 1 = count.toNat := by
  obtain ⟨hsound, front, afterFront, _, _, _, _, _, hfront, rfl, -⟩ := reads_read.mp h
  simp only [writeFront, ConstantPool.write, bind_eq_ok, pure_eq_ok, count16_eq_ok] at hfront
  obtain ⟨_, ⟨count, hcount, constants, -, rfl⟩, interfaces, -, rfl⟩ := hfront
  refine ⟨magic ++ file.version.toBytes, count, constants ++ (file.flags.toBytes ++
    (Bytes.ofU2 file.thisClass ++ (Bytes.ofU2 (file.superClass.getD 0) ++
      (interfaces ++ afterFront)))), rfl, by simp only [List.append_assoc], ?_⟩
  -- The slots are those between the start of the pool and its end.
  have hfilled := hsound.constants.reachable.filled
  have hstart := hfilled.start_eq
  have hpos := hsound.constants.reachable.next_pos
  rw [hcount, ConstantPool.size, OffsetArray.totalWidth, hstart]
  unfold ConstantPool.next at *
  omega

/-- What is known of a class file that was read from some bytes. -/
structure Guarantees (bytes : Bytes) (file : ClassFile) : Prop where
  /-- There is a class at the index of the class itself. -/
  thisClass : file.constants.IsClass file.thisClass
  /-- There is a class at the index of the super class, if there is such an index. -/
  superClass : ∀ index, file.superClass = some index → file.constants.IsClass index
  /-- There are classes at the indices of the interfaces. -/
  interfaces : ∀ index ∈ file.interfaces, file.constants.IsClass index
  /-- There are strings at the indices of the names and the descriptors of fields. -/
  fields : ∀ field ∈ file.fields,
    file.constants.IsString field.name ∧ file.constants.IsString field.descriptor
  /-- There are strings at the indices of the names and the descriptors of methods. -/
  methods : ∀ method ∈ file.methods,
    file.constants.IsString method.name ∧ file.constants.IsString method.descriptor
  /-- At the index of the name of an attribute, however deep it is, is a text: the name of its
  kind. -/
  names : ∀ attr, file.Holds attr → file.constants.get attr.name = .ok (.utf8 attr.kindName)
  /-- There is a string at the index of the file that a class was compiled from. -/
  sourceFiles : ∀ name source, file.Holds (.sourceFile name source) →
    file.constants.IsString source
  /-- The instructions of a method body are what some code in the bytes decodes to. -/
  code : ∀ body attributes, file.Holds (.code body attributes) →
    ∃ code, code <:+: bytes ∧ Instruction.decodeAll code = ⟨[], .ok (body.instructions, [])⟩
  /-- The table of opcodes gives the length of every instruction, and there are as many operand
  bytes as it says. -/
  instructions : ∀ body attributes, file.Holds (.code body attributes) →
    ∀ instruction ∈ body.instructions.elements, instruction.opcode.isSupported = true ∧
      instruction.operands.length = instruction.opcode.operandBytes
  /-- Every instruction stands behind the bytes of those before it. -/
  offsets : ∀ body attributes, file.Holds (.code body attributes) →
    ∀ number : Nat, body.instructions.toList[number]? =
      body.instructions.elements[number]?.map fun instruction =>
        (((body.instructions.elements.take number).map Instruction.byteLength).sum, instruction)
  /-- No handler catches the class at index 0. -/
  catchTypes : ∀ body attributes, file.Holds (.code body attributes) →
    ∀ handler ∈ body.handlers, handler.catchType ≠ some 0
  /-- No string of units is text. -/
  units : ∀ index units, file.constants.get index = .ok (.utf16 units) →
    ∀ text, units ≠ Utf16.ofText text
  /-- The number of slots of the pool, and one more, is declared behind the magic number and the
  version. -/
  count : ∃ front count behind, front.length = 8 ∧ bytes = front ++ Bytes.ofU2 count ++ behind ∧
    file.constants.size + 1 = count.toNat

/-- Every class file that is read has all that a reader guarantees, whatever its bytes are. -/
theorem guarantees_of_ofBytes (h : ofBytes bytes = ⟨reports, .ok (file, rest)⟩) :
    Guarantees bytes file := by
  obtain ⟨hwell, hstands⟩ := wellFormed_of_ofBytes h
  exact
    { thisClass := hwell.thisClass
      superClass := hwell.superClass
      interfaces := hwell.interfaces
      fields := hwell.fields
      methods := hwell.methods
      names := fun attr hattr => ConstantPool.text_eq_ok_iff.mp (hwell.names attr hattr)
      sourceFiles := hwell.sourceFiles
      code := fun body attributes hattr => by
        have hfilled := hwell.code body attributes hattr
        obtain ⟨outer, houter, hoccurs⟩ := hattr
        exact ⟨Instruction.codeBytes body.instructions,
          hstands outer houter body attributes hoccurs,
          Instruction.decodeAll_eq_ok_iff.mpr ⟨rfl, rfl, hfilled, rfl⟩⟩
      instructions := fun _ _ _ instruction _ =>
        ⟨instruction.supported, instruction.length_operands⟩
      offsets := fun body attributes hattr number => by
        rw [(hwell.code body attributes hattr).getElem?_toList]
        simp only [Nat.zero_add]
        rfl
      catchTypes := hwell.catchTypes
      units := by
        rintro index units hget text rfl
        -- The units of a text are read as that text.
        have hnone : Utf16.toText? (Utf16.ofText text) = none :=
          hwell.canonical _ (hwell.reachable.mem_of_get hget)
        rw [Utf16.toText?_eq_some_iff.mpr rfl] at hnone
        cases hnone
      count := exists_count_of_ofBytes h }

/-- For instance, the method body in a class with losses is what a byte of it decodes to, and its
name is the one of its kind. -/
theorem guarantees_of_bytesWithLosses :
    ∃ reports file rest, ofBytes bytesWithLosses = ⟨reports, .ok (file, rest)⟩ ∧
      Guarantees bytesWithLosses file ∧
      file.Holds (.code bodyWithLosses []) ∧ file.constants.size = 4 := by
  have hreports : (ofBytes bytesWithLosses).reports =
      [.skippedAttribute "X" 3, .unusedBytes "Code" 15 13] := by decide +kernel
  have hsections : ((ofBytes bytesWithLosses).outcome.map fun (file, _) =>
      (file.attributes, file.constants.size)) = .ok ([.code bodyWithLosses []], 4) := by
    decide +kernel
  obtain ⟨⟨file, rest⟩, houtcome, hsections⟩ := map_eq_ok.mp hsections
  obtain ⟨hattributes, hsize⟩ := Prod.mk.inj hsections
  have hread : ofBytes bytesWithLosses =
      ⟨[.skippedAttribute "X" 3, .unusedBytes "Code" 15 13], .ok (file, rest)⟩ :=
    Reader.ext_reading hreports houtcome
  refine ⟨_, file, rest, hread, guarantees_of_ofBytes hread, ⟨_, .inr (.inr ?_), .self⟩, hsize⟩
  rw [hattributes]
  exact List.mem_singleton_self _

end ClassFile

end JavaClass
