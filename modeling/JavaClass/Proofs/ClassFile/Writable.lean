import JavaClass.Proofs.Attribute.Writable
import JavaClass.Proofs.ClassFile.WellFormed

/-!
# Class files that are refused

A class file that was read is written again, unless there is a method body in it that has more code
than a method can have. Readers accept such code, and writers refuse it.

- `ClassFile.exists_longCode_of_toBytes`: what was read is refused only for code that is too long.
- `ClassFile.codeFits_of_toBytes`: what is written has no such code.
- `ClassFile.ofBytes_bytesWithCode`: a class with a method of any code that an attribute can hold is
  read.
- `ClassFile.toBytes_of_ofBytes`: what was read is written exactly if it has no such code.
-/

namespace JavaClass

variable {cause : Error}

/-- A field or a method that was read is refused only if there is code in one of its attributes that
is too long. -/
theorem Member.writableUnless_read {declaration : Declaration} {pool : ConstantPool}
    (hpool : pool.Canonical) :
    (Member.read pool : Reader (Member declaration)).WritableUnless
      (fun member cause => ∃ attr ∈ member.attributes, attr.HasLongCode cause) Member.write := by
  intro input reports member rest hreads cause herror
  obtain ⟨-, between, rfl, hattributes⟩ := Member.reads_read.mp hreads
  -- Only the attributes of a member can be refused.
  simp only [Member.write, bind_eq_error, pure_ne_error, and_false, exists_false, or_false]
    at herror
  exact Attribute.writableUnless_readList hpool hattributes herror

namespace ClassFile

variable {file : ClassFile} {bytes rest : Bytes} {reports : List Diagnostic}

/-- A class file whose front can be written is refused for its fields, its methods or its
attributes. -/
theorem toBytes_eq_error {front : Bytes} (hfront : file.writeFront = .ok front)
    (h : file.toBytes = .error cause) :
    writeTable "fields" Member.write file.fields = .error cause ∨
      writeTable "methods" Member.write file.methods = .error cause ∨
        Attribute.writeList file.attributes = .error cause := by
  simp only [writeFront, bind_eq_ok] at hfront
  obtain ⟨constants, hconstants, interfaces, hinterfaces, -⟩ := hfront
  simp only [toBytes, hconstants, hinterfaces, bind_eq_error, pure_ne_error, Except.ok.injEq,
    reduceCtorEq, false_or, and_false, exists_false, or_false, exists_eq_left'] at h
  obtain hfields | ⟨_, -, hmethods | ⟨_, -, hattributes⟩⟩ := h
  · exact .inl hfields
  · exact .inr (.inl hmethods)
  · exact .inr (.inr hattributes)

/-- A class file that was read is refused only for code in it that is too long, and the error says
how long. -/
theorem exists_longCode_of_toBytes (h : ofBytes bytes = ⟨reports, .ok (file, rest)⟩)
    (herror : file.toBytes = .error cause) :
    ∃ body attributes, file.Holds (.code body attributes) ∧
      MethodBody.maxCodeLength < body.codeLength ∧ cause = .codeTooLong body.codeLength := by
  obtain ⟨hsound, front, _, _, _, _, _, _, hfront, rfl, hfields, hmethods, hattributes, rfl⟩ :=
    reads_read.mp h
  have hpool := hsound.constants
  -- Code in an attribute of the class file or of a member is code in the class file.
  suffices hlong : ∃ attr, file.HasAttribute attr ∧ attr.HasLongCode cause by
    obtain ⟨attr, hattr, body, attributes, hoccurs, hlt, rfl⟩ := hlong
    exact ⟨body, attributes, ⟨attr, hattr, hoccurs⟩, hlt, rfl⟩
  obtain herror | herror | herror := toBytes_eq_error hfront herror
  · obtain ⟨field, hmem, attr, hattr, hlong⟩ :=
      (Member.writableUnless_read hpool).table "fields" hfields herror
    exact ⟨attr, .inl ⟨field, hmem, hattr⟩, hlong⟩
  · obtain ⟨method, hmem, attr, hattr, hlong⟩ :=
      (Member.writableUnless_read hpool).table "methods" hmethods herror
    exact ⟨attr, .inr (.inl ⟨method, hmem, hattr⟩), hlong⟩
  · obtain ⟨attr, hattr, hlong⟩ := Attribute.writableUnless_readList hpool hattributes herror
    exact ⟨attr, .inr (.inr hattr), hlong⟩

/-- A class file is written only if no code in it is too long. -/
theorem codeFits_of_toBytes {written : Bytes} (h : file.toBytes = .ok written) {body : MethodBody}
    {attributes : List Attribute} (hholds : file.Holds (.code body attributes)) :
    body.codeLength ≤ MethodBody.maxCodeLength := by
  obtain ⟨front, fields, methods, nested, -, hfields, hmethods, hnested, -⟩ := toBytes_eq_ok.mp h
  -- Members that are written have attributes that are written.
  have hmember {declaration : Declaration} {what : String} {members : List (Member declaration)}
      {bytes : Bytes} (hwrite : writeTable what Member.write members = .ok bytes)
      {member : Member declaration} (hmem : member ∈ members) {attr : Attribute}
      (hattr : attr ∈ member.attributes) : attr.CodeFits := by
    obtain ⟨count, all, -, hall, -⟩ := writeTable_eq_ok.mp hwrite
    obtain ⟨piece, hpiece, -⟩ := exists_write_of_mem hall hmem
    obtain ⟨list, hlist, -⟩ := Member.write_eq_ok.mp hpiece
    exact Attribute.codeFits_of_writeList hlist hattr
  obtain ⟨outer, ⟨field, hmem, hattr⟩ | ⟨method, hmem, hattr⟩ | hattr, hoccurs⟩ := hholds
  · exact hmember hfields hmem hattr body attributes hoccurs
  · exact hmember hmethods hmem hattr body attributes hoccurs
  · exact Attribute.codeFits_of_writeList hnested hattr body attributes hoccurs

/-! ## A method with any code -/

/-- The body of a method that has no handlers and needs no stack. -/
def bodyWithCode (instructions : List Instruction) : MethodBody where
  name := 5
  maxStack := 0
  maxLocals := 1
  instructions := .ofList instructions
  handlers := []

/-- A method with some instructions. -/
def methodWithCode (instructions : List Instruction) : Method where
  flags := ⟨0x0009⟩
  name := 3
  descriptor := 4
  attributes := [.code (bodyWithCode instructions) []]

/-- The class of a method with some instructions. -/
def withCode (instructions : List Instruction) : ClassFile :=
  { withEmptyMethod with methods := [methodWithCode instructions] }

/-- In the class of a method with some instructions there is no code but theirs. -/
theorem holds_withCode_iff {instructions : List Instruction} {body : MethodBody}
    {attributes : List Attribute} :
    (withCode instructions).Holds (.code body attributes) ↔
      body = bodyWithCode instructions ∧ attributes = [] := by
  have hattr (attr : Attribute) : (withCode instructions).HasAttribute attr ↔
      attr = .code (bodyWithCode instructions) [] := by
    simp [HasAttribute, withCode, withEmptyMethod, methodWithCode]
  simp only [Holds, hattr, exists_eq_left, Attribute.occurs_code_iff, List.not_mem_nil, false_and,
    exists_false, or_false, Attribute.code.injEq]

/-- The code of the method is the bytes of its instructions. -/
theorem codeBytes_bodyWithCode (instructions : List Instruction) :
    Instruction.codeBytes (bodyWithCode instructions).instructions =
      instructions.flatMap Instruction.toBytes := by
  rw [bodyWithCode, Instruction.codeBytes, OffsetArray.ofList, OffsetArray.elements_append]
  rfl

theorem filledFrom_bodyWithCode (instructions : List Instruction) :
    (bodyWithCode instructions).instructions.FilledFrom 0 :=
  OffsetArray.FilledFrom.startingAt.append instructions

theorem codeLength_bodyWithCode (instructions : List Instruction) :
    (bodyWithCode instructions).codeLength = (instructions.flatMap Instruction.toBytes).length := by
  rw [MethodBody.codeLength, ← Instruction.length_codeBytes (filledFrom_bodyWithCode instructions),
    codeBytes_bodyWithCode]

/-- The contents of the attribute of a method with some code. -/
def contentsWithCode (code : Bytes) : Bytes :=
  Bytes.ofU2 0 ++ Bytes.ofU2 1 ++ Bytes.ofU4 (UInt32.ofNat code.length) ++ code ++ Bytes.ofU2 0 ++
    Bytes.ofU2 0

/-- The contents of the attribute of a method are read, with no attributes in it. -/
theorem readsContents_bodyWithCode (instructions : List Instruction) {code : Bytes}
    (hcode : code = instructions.flatMap Instruction.toBytes)
    (hlt : code.length < 0x100000000) (pool : ConstantPool) (length : Nat) :
    (Attribute.code (bodyWithCode instructions) []).ReadsContents (Attribute.readNested pool length)
      (contentsWithCode code) [] [] := by
  have hlen : (bodyWithCode instructions).codeLength = code.length := by
    rw [codeLength_bodyWithCode, hcode]
  have hbody : Attribute.writeBody (bodyWithCode instructions) =
      .ok (Bytes.ofU2 0 ++ Bytes.ofU2 1 ++ Bytes.ofU4 (UInt32.ofNat code.length) ++ code ++
        Bytes.ofU2 0) := by
    refine bind_eq_ok.mpr ⟨Bytes.ofU2 0, rfl, ?_⟩
    rw [hlen, codeBytes_bodyWithCode, ← hcode]
    rfl
  have hnested : (Attribute.readNested pool length).Reads (Bytes.ofU2 0) [] [] [] := by
    rw [Attribute.readNested]
    exact Reader.reads_map.mpr ⟨[], Reader.reads_table_nil, rfl⟩
  exact ⟨_, _, by rwa [hlen], hbody, rfl, hnested⟩

/-- The bytes of a method with some code. -/
def methodBytesWithCode (code : Bytes) : Bytes :=
  Bytes.ofU2 9 ++ Bytes.ofU2 3 ++ Bytes.ofU2 4 ++ (Bytes.ofU2 1 ++
    (Attribute.headerBytes 5 (UInt32.ofNat (12 + code.length)) ++ contentsWithCode code))

/-- A method with any code that an attribute can hold is read. -/
theorem reads_methodBytesWithCode {pool : ConstantPool} {instructions : List Instruction}
    {code : Bytes}
    (hnamed : (methodWithCode instructions).IsNamed pool)
    (hname : pool.text 5 = .ok Attribute.codeName)
    (hcode : code = instructions.flatMap Instruction.toBytes)
    (hlt : 12 + code.length < 0x100000000) (rest : Bytes) :
    (Member.read pool).Reads (methodBytesWithCode code ++ rest) [] (methodWithCode instructions)
      rest := by
  have hlength : (UInt32.ofNat (12 + code.length)).toNat = 12 + code.length :=
    UInt32.toNat_ofNat_of_lt hlt
  have hlen : (contentsWithCode code).length = (UInt32.ofNat (12 + code.length)).toNat := by
    simp only [contentsWithCode, List.length_append, Bytes.length_ofU2, Bytes.length_ofU4, hlength]
    omega
  have hsound : (Attribute.code (bodyWithCode instructions) []).IsSound pool :=
    ⟨hname, filledFrom_bodyWithCode instructions, List.forall_mem_nil _⟩
  have hattr : (Attribute.read pool).Reads (Attribute.headerBytes 5 (UInt32.ofNat
      (12 + code.length)) ++ contentsWithCode code ++ rest) []
      (some (.code (bodyWithCode instructions) [])) rest :=
    @Attribute.reads_readWith_of_contents pool (.code (bodyWithCode instructions) []) rest
      (Attribute.readNested pool) _ _ hsound hlen
      (readsContents_bodyWithCode instructions hcode (by omega) pool _)
  refine Member.reads_read.mpr ⟨hnamed, _, ?_,
    Reader.reads_map.mpr ⟨_, Reader.reads_table_singleton hattr, rfl⟩⟩
  simp only [methodBytesWithCode, List.append_assoc]
  rfl

/-- The bytes of the class of a method up to its fields. -/
def frontWithCode : Bytes :=
  magic ++ Version.default.toBytes ++
    -- The pool: the name of the class, the class, the name and the type of the method, and the name
    -- of method bodies.
    [0, 6, 1, 0, 4, 0x4D, 0x61, 0x69, 0x6E, 7, 0, 1, 1, 0, 3, 0x72, 0x75, 0x6E,
      1, 0, 3, 0x28, 0x29, 0x56, 1, 0, 4, 0x43, 0x6F, 0x64, 0x65] ++
    [0, 0x21, 0, 2, 0, 0, 0, 0]

/-- The bytes of the class of a method with some code: no fields, one method, no attributes. -/
def bytesWithCode (code : Bytes) : Bytes :=
  frontWithCode ++ (Bytes.ofU2 0 ++ (Bytes.ofU2 1 ++ (methodBytesWithCode code ++ Bytes.ofU2 0)))

/-- A class with a method of any code that an attribute can hold is read, and nothing is
reported. -/
theorem ofBytes_bytesWithCode (instructions : List Instruction) {code : Bytes}
    (hcode : code = instructions.flatMap Instruction.toBytes)
    (hlt : 12 + code.length < 0x100000000) :
    ofBytes (bytesWithCode code) = ⟨[], .ok (withCode instructions, [])⟩ := by
  have hsound : (withCode instructions).HasSoundFront :=
    { wellFormed_withEmptyMethod.hasSoundFront with }
  have hfront : (withCode instructions).writeFront = .ok frontWithCode := by
    change withEmptyMethod.writeFront = _
    decide +kernel
  -- The names of the method and of its body are those in the class with an empty method.
  have hnamed : (methodWithCode instructions).IsNamed withEmptyMethod.constants :=
    wellFormed_withEmptyMethod.methods (methodWithCode [returnFromMethod]) List.mem_cons_self
  have hname : withEmptyMethod.constants.text 5 = .ok Attribute.codeName :=
    wellFormed_withEmptyMethod.names (.code (bodyWithCode [returnFromMethod]) [])
      ⟨_, .inr (.inl ⟨_, List.mem_cons_self, List.mem_cons_self⟩), .self⟩
  have hmethod := reads_methodBytesWithCode hnamed hname hcode hlt (Bytes.ofU2 0)
  exact reads_read.mpr ⟨hsound, frontWithCode, _, [], _, [], _, [], hfront, rfl,
    Reader.reads_table_nil, Reader.reads_table_singleton hmethod,
    Reader.reads_map.mpr ⟨[], Reader.reads_table_nil, rfl⟩, rfl⟩

/-- The instruction that does nothing. -/
def doNothing : Instruction := ⟨.nop, [], by decide, by decide⟩

/-- The instructions of a method that does nothing some number of times, and then ends. -/
def idle (n : Nat) : List Instruction := List.replicate n doNothing ++ [returnFromMethod]

/-- The bytes of the instructions that do nothing and end. -/
def idleCode (n : Nat) : Bytes := List.replicate n 0 ++ [0xB1]

@[simp]
theorem length_idleCode (n : Nat) : (idleCode n).length = n + 1 := by
  rw [idleCode, List.length_append, List.length_replicate, List.length_singleton]

theorem idleCode_eq (n : Nat) : idleCode n = (idle n).flatMap Instruction.toBytes := by
  rw [idle, List.flatMap_append, List.flatMap_replicate]
  exact congrArg (· ++ [0xB1]) List.flatten_replicate_singleton.symm

/-- A class with a method that does nothing and ends is read. -/
theorem ofBytes_idle {n : Nat} (hn : 13 + n < 0x100000000) :
    ofBytes (bytesWithCode (idleCode n)) = ⟨[], .ok (withCode (idle n), [])⟩ :=
  ofBytes_bytesWithCode _ (idleCode_eq n) (by rw [length_idleCode]; omega)

theorem codeLength_idle (n : Nat) : (bodyWithCode (idle n)).codeLength = n + 1 := by
  rw [codeLength_bodyWithCode, ← idleCode_eq, length_idleCode]

/-! ## What was read and is not written -/

/-- A class file that was read is written exactly if no code in it is too long for a method, at any
depth. Otherwise the error says how long such code is. -/
theorem toBytes_of_ofBytes (h : ofBytes bytes = ⟨reports, .ok (file, rest)⟩) :
    ((∃ written, file.toBytes = .ok written) ↔
      ∀ body attributes, file.Holds (.code body attributes) →
        body.codeLength ≤ MethodBody.maxCodeLength) ∧
    ∀ cause, file.toBytes = .error cause →
      ∃ body attributes, file.Holds (.code body attributes) ∧
        MethodBody.maxCodeLength < body.codeLength ∧ cause = .codeTooLong body.codeLength := by
  refine ⟨⟨?_, fun hfits => ?_⟩, fun cause herror => exists_longCode_of_toBytes h herror⟩
  · rintro ⟨written, hwritten⟩ body attributes hholds
    exact codeFits_of_toBytes hwritten hholds
  · rcases hwrite : file.toBytes with cause | written
    · obtain ⟨body, attributes, hholds, hlt, -⟩ := exists_longCode_of_toBytes h hwrite
      exact absurd (hfits body attributes hholds) (Nat.not_le_of_lt hlt)
    · exact ⟨written, rfl⟩

/-- The longest method that does nothing is written, and one that is a byte longer is not. -/
theorem toBytes_of_ofBytes_idle :
    ofBytes (bytesWithCode (idleCode 65534)) = ⟨[], .ok (withCode (idle 65534), [])⟩ ∧
      (∃ written, (withCode (idle 65534)).toBytes = .ok written) ∧
      ofBytes (bytesWithCode (idleCode 65535)) = ⟨[], .ok (withCode (idle 65535), [])⟩ ∧
      ¬ ∃ written, (withCode (idle 65535)).toBytes = .ok written := by
  have hread : ofBytes (bytesWithCode (idleCode 65534)) =
      ⟨[], .ok (withCode (idle 65534), [])⟩ := ofBytes_idle (by decide)
  have hreadLonger : ofBytes (bytesWithCode (idleCode 65535)) =
      ⟨[], .ok (withCode (idle 65535), [])⟩ := ofBytes_idle (by decide)
  refine ⟨hread, (toBytes_of_ofBytes hread).1.mpr ?_, hreadLonger, fun hwritten => ?_⟩
  · intro body attributes hholds
    rw [(holds_withCode_iff.mp hholds).1, codeLength_idle]
    decide
  · have hle := (toBytes_of_ofBytes hreadLonger).1.mp hwritten _ _
      (holds_withCode_iff.mpr ⟨rfl, rfl⟩)
    rw [codeLength_idle, MethodBody.maxCodeLength] at hle
    omega

/-- A class with a method that is one byte too long is read without a report, and is not written. -/
theorem toBytes_idle_eq_error :
    ofBytes (bytesWithCode (idleCode 65535)) = ⟨[], .ok (withCode (idle 65535), [])⟩ ∧
      (withCode (idle 65535)).toBytes = .error (.codeTooLong 65536) := by
  have hread : ofBytes (bytesWithCode (idleCode 65535)) =
      ⟨[], .ok (withCode (idle 65535), [])⟩ := ofBytes_idle (by decide)
  refine ⟨hread, ?_⟩
  -- The only code in the class is too long, so its length is the cause.
  rcases hwrite : (withCode (idle 65535)).toBytes with cause | written
  · obtain ⟨body, attributes, hholds, -, rfl⟩ := exists_longCode_of_toBytes hread hwrite
    rw [(holds_withCode_iff.mp hholds).1, codeLength_idle]
  · have hle := codeFits_of_toBytes hwrite (holds_withCode_iff.mpr ⟨rfl, rfl⟩)
    rw [codeLength_idle, MethodBody.maxCodeLength] at hle
    omega

end ClassFile

end JavaClass
