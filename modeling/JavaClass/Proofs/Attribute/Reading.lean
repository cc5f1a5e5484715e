import JavaClass.Proofs.Attribute

/-!
# What readers of attributes yield

When the reader of an attribute succeeds, and with which attribute. Every step has one equivalence,
which serves reading what was written as well as writing what was read.

- `Attribute.HasSoundContents`: what is known of the contents of an attribute that was read.
- `Attribute.reads_readHeader`: headers.
- `Attribute.readsContents_of_bodyReader`, `Attribute.exists_bodyReader_of_readsContents`: the
  bodies of attributes of known kinds.
- `Attribute.reads_readWith_bodyReader`, `Attribute.reads_readWith`,
  `Attribute.reads_readListWith`: attributes, skipped ones included.
-/

namespace JavaClass

/-- Lines are read as they are written. -/
theorem LineNumber.inverts_read :
    LineNumber.read.Inverts (fun _ => True) fun line => .ok line.toBytes := by
  refine Reader.inverts_ok fun input reports line rest => ?_
  simp only [LineNumber.read, Reader.reads_u2_bind, Reader.reads_pure, toBytes]
  constructor
  · rintro ⟨startPc, _, rfl, number, _, rfl, rfl, rfl, rfl⟩
    exact ⟨rfl, trivial, by rw [List.append_assoc]⟩
  · rintro ⟨rfl, -, rfl⟩
    exact ⟨line.startPc, _, by rw [List.append_assoc], line.line, rest, rfl, rfl, rfl, rfl⟩

/-- Handlers are read as they are written, and never catch the class at index 0. -/
theorem ExceptionHandler.inverts_read :
    ExceptionHandler.read.Inverts (fun handler => handler.catchType ≠ some 0)
      fun handler => .ok handler.toBytes := by
  refine Reader.inverts_ok fun input reports handler rest => ?_
  simp only [ExceptionHandler.read, Reader.reads_u2_bind, Reader.reads_pure, toBytes]
  constructor
  · rintro ⟨startPc, _, rfl, endPc, _, rfl, handlerPc, _, rfl, caught, _, rfl, rfl, rfl, rfl⟩
    -- Index 0 stands for no class, so a class that is caught is never at it.
    by_cases hcaught : caught = 0
    · subst hcaught
      exact ⟨rfl, by simp, by simp⟩
    · exact ⟨rfl, by simp [hcaught], by simp [hcaught]⟩
  · rintro ⟨rfl, hne, rfl⟩
    obtain ⟨startPc, endPc, handlerPc, catchType⟩ := handler
    refine ⟨startPc, _, by simp only [List.append_assoc], endPc, _, rfl, handlerPc, _, rfl,
      catchType.getD 0, rest, rfl, rfl, ?_, rfl⟩
    cases catchType with
    | none => rfl
    | some caught =>
      have hcaught : caught ≠ 0 := by
        rintro rfl
        exact hne rfl
      simp [hcaught]

namespace Attribute

variable {pool : ConstantPool} {input rest : Bytes} {reports : List Diagnostic}

/-! ## Headers -/

/-- A header is read from where it is written, if there is a string at the index of the name. -/
theorem reads_readHeader {header : Header} :
    (readHeader pool).Reads input reports header rest ↔
      reports = [] ∧ pool.IsString header.name ∧ pool.textLossy header.name = .ok header.text ∧
        input = headerBytes header.name header.length ++ rest := by
  simp only [readHeader, Reader.reads_u2_bind, Reader.reads_u4_bind, Reader.reads_ofExcept_bind,
    Reader.reads_pure, ConstantPool.stringIndex_eq_ok_iff, headerBytes]
  constructor
  · rintro ⟨name, _, rfl, _, ⟨rfl, hstring⟩, text, htext, length, _, rfl, rfl, rfl, rfl⟩
    exact ⟨rfl, hstring, htext, by rw [List.append_assoc]⟩
  · rintro ⟨rfl, hstring, htext, rfl⟩
    exact ⟨header.name, _, by rw [List.append_assoc], header.name, ⟨rfl, hstring⟩, header.text,
      htext, header.length, rest, rfl, rfl, rfl, rfl⟩

/-! ## Bodies -/

/-- The name that attributes of a kind have. -/
def kindName : Attribute → String
  | sourceFile .. => sourceFileName
  | constantValue .. => constantValueName
  | code .. => codeName
  | lineNumberTable .. => lineNumberTableName

/-- What is known of the contents of an attribute that was read, its attributes aside: the file that
a class was compiled from is a string, code was laid out from offset 0 on, and no handler catches
the class at index 0. -/
def HasSoundContents (pool : ConstantPool) : Attribute → Prop
  | sourceFile _ file => pool.IsString file
  | code body _ =>
    body.instructions.FilledFrom 0 ∧ ∀ handler ∈ body.handlers, handler.catchType ≠ some 0
  | constantValue .. | lineNumberTable .. => True

/-- A method body is read from where it is written, and its attributes are read behind it. Its code
is as long as four bytes can say. -/
theorem reads_readCode (pool : ConstantPool) {name : ConstantIndex}
    {nested : Reader (List Attribute)} {attr : Attribute} :
    (readCode name nested).Reads input reports attr rest ↔
      ∃ body attributes front between, attr = .code body attributes ∧ body.name = name ∧
        attr.HasSoundContents pool ∧ body.codeLength < 0x100000000 ∧
        writeBody body = .ok front ∧ input = front ++ between ∧
        nested.Reads between reports attributes rest := by
  have table := ExceptionHandler.inverts_read.table "exception handlers"
  simp only [readCode, Reader.reads_u2_bind, Reader.reads_u4_bind, Reader.reads_bytes_bind,
    Reader.reads_within_bind, table.reads_bind, Reader.reads_map]
  constructor
  · rintro ⟨maxStack, _, rfl, maxLocals, _, rfl, length, _, rfl, _, _, ⟨hlen, rfl⟩,
      _, instructions, unused, _, hcode, ⟨handlers, between, ⟨hhandlers, bytes, hbytes, rfl⟩,
        attributes, hnested, rfl⟩, rfl⟩
    -- The code is decoded to its end, so nothing of its bytes is left.
    obtain ⟨rfl, -, hfilled, rfl⟩ := Instruction.reads_decodeToEnd.mp hcode
    rw [Instruction.length_codeBytes hfilled] at hlen
    refine ⟨_, attributes, _, between, rfl, rfl, ⟨hfilled, hhandlers⟩, ?_,
      bind_eq_ok.mpr ⟨bytes, hbytes, rfl⟩, ?_, hnested⟩
    · rw [MethodBody.codeLength, hlen]
      exact length.toNat_lt
    · simp [MethodBody.codeLength, hlen]
  · rintro ⟨body, attributes, front, between, rfl, rfl, ⟨hfilled, hhandlers⟩, hlt, hfront, rfl,
      hnested⟩
    simp only [writeBody, bind_eq_ok, pure_eq_ok] at hfront
    obtain ⟨bytes, hbytes, rfl⟩ := hfront
    -- The length that is read is that of the code, as four bytes can say it.
    have hlen : (Instruction.codeBytes body.instructions).length =
        (UInt32.ofNat body.codeLength).toNat := by
      rw [Instruction.length_codeBytes hfilled]
      exact (UInt32.toNat_ofNat_of_lt hlt).symm
    refine ⟨body.maxStack, _, by simp only [List.append_assoc], body.maxLocals, _, rfl,
      UInt32.ofNat body.codeLength, _, rfl, Instruction.codeBytes body.instructions,
      bytes ++ between, ⟨hlen, rfl⟩, [], body.instructions, [], reports, ?_,
      ⟨body.handlers, between, ⟨hhandlers, bytes, hbytes, rfl⟩, attributes, hnested, rfl⟩, rfl⟩
    exact Instruction.reads_decodeToEnd.mpr ⟨rfl, rfl, hfilled, rfl⟩

/-- The contents of an attribute are read from where they are written; the attributes of a method
body are read behind what the body has itself. -/
def ReadsContents (nested : Reader (List Attribute)) (input : Bytes) (reports : List Diagnostic)
    (attr : Attribute) (rest : Bytes) : Prop :=
  match attr with
  | code body attributes =>
    ∃ front between, body.codeLength < 0x100000000 ∧ writeBody body = .ok front ∧
      input = front ++ between ∧ nested.Reads between reports attributes rest
  | other => reports = [] ∧ ∃ contents, other.writeContents = .ok contents ∧
      input = contents ++ rest

/-- What the reader for a header yields has the name of the header and is of the kind that the name
tells. -/
theorem readsContents_of_bodyReader {header : Header} {nested : Reader (List Attribute)}
    {attr : Attribute} {reader : Reader Attribute}
    (hreader : bodyReader? pool header nested = some reader)
    (h : reader.Reads input reports attr rest) :
    attr.name = header.name ∧ attr.kindName = header.text ∧ attr.HasSoundContents pool ∧
      attr.ReadsContents nested input reports rest := by
  unfold bodyReader? at hreader
  split_ifs at hreader with hsource hconstant hcode hlines <;> cases hreader
  · simp only [Reader.reads_u2_bind, Reader.reads_ofExcept_bind, Reader.reads_pure,
      ConstantPool.stringIndex_eq_ok_iff] at h
    obtain ⟨file, _, rfl, _, ⟨rfl, hstring⟩, rfl, rfl, rfl⟩ := h
    exact ⟨rfl, hsource.symm, hstring, rfl, _, rfl, rfl⟩
  · simp only [Reader.reads_u2_bind, Reader.reads_pure] at h
    obtain ⟨value, _, rfl, rfl, rfl, rfl⟩ := h
    exact ⟨rfl, hconstant.symm, trivial, rfl, _, rfl, rfl⟩
  · obtain ⟨body, attributes, front, between, rfl, hname, hsound, hlt, hfront, rfl, hnested⟩ :=
      (reads_readCode pool).mp h
    exact ⟨hname, hcode.symm, hsound, front, between, hlt, hfront, rfl, hnested⟩
  · simp only [(LineNumber.inverts_read.table "line numbers").reads_bind,
      Reader.reads_pure] at h
    obtain ⟨lines, _, ⟨-, bytes, hbytes, rfl⟩, rfl, rfl, rfl⟩ := h
    exact ⟨rfl, hlines.symm, trivial, rfl, bytes, hbytes, rfl⟩

/-- The contents of an attribute are read by the reader for a header with its name. -/
theorem exists_bodyReader_of_readsContents {header : Header} {nested : Reader (List Attribute)}
    {attr : Attribute} (hname : attr.name = header.name) (hkind : attr.kindName = header.text)
    (hsound : attr.HasSoundContents pool) (h : attr.ReadsContents nested input reports rest) :
    ∃ reader, bodyReader? pool header nested = some reader ∧
      reader.Reads input reports attr rest := by
  obtain ⟨name, text, length⟩ := header
  subst hname hkind
  cases attr with
  | sourceFile name file =>
    obtain ⟨rfl, _, ⟨⟩, rfl⟩ := h
    refine ⟨_, rfl, ?_⟩
    simp only [Reader.reads_u2_bind, Reader.reads_ofExcept_bind, Reader.reads_pure,
      ConstantPool.stringIndex_eq_ok_iff]
    exact ⟨file, rest, rfl, file, ⟨rfl, hsound⟩, trivial, rfl, rfl⟩
  | constantValue name value =>
    obtain ⟨rfl, _, ⟨⟩, rfl⟩ := h
    refine ⟨_, rfl, ?_⟩
    simp only [Reader.reads_u2_bind, Reader.reads_pure]
    exact ⟨value, rest, rfl, trivial, rfl, rfl⟩
  | code body attributes =>
    obtain ⟨front, between, hlt, hfront, rfl, hnested⟩ := h
    refine ⟨_, rfl, (reads_readCode pool).mpr ?_⟩
    exact ⟨body, attributes, front, between, rfl, rfl, hsound, hlt, hfront, rfl, hnested⟩
  | lineNumberTable name lines =>
    obtain ⟨rfl, bytes, hbytes, rfl⟩ := h
    refine ⟨_, rfl, ?_⟩
    simp only [(LineNumber.inverts_read.table "line numbers").reads_bind, Reader.reads_pure]
    exact ⟨lines, rest, ⟨fun _ _ => trivial, bytes, hbytes, rfl⟩, trivial, rfl, rfl⟩

/-! ## Attributes -/

/-- What is reported about the bytes of a body that its reader left. -/
def unusedReport (header : Header) (unused : Bytes) : List Diagnostic :=
  if unused.isEmpty then []
  else [.unusedBytes header.text header.length (header.length - UInt32.ofNat unused.length)]

/-- Bytes that were left are reported before a value is yielded. -/
theorem reads_reportUnused {α : Type} {header : Header} {unused : Bytes} {value found : α} :
    (reportUnused header unused >>= fun _ => pure value).Reads input reports found rest ↔
      reports = unusedReport header unused ∧ found = value ∧ rest = input := by
  unfold reportUnused unusedReport
  split
  · rw [pure_bind, Reader.reads_pure]
  · simp only [Reader.reads_bind, Reader.reads_report, Reader.reads_pure]
    constructor
    · rintro ⟨_, _, _, _, ⟨rfl, rfl⟩, ⟨rfl, rfl, rfl⟩, rfl⟩
      exact ⟨rfl, rfl, rfl⟩
    · rintro ⟨rfl, rfl, rfl⟩
      exact ⟨_, (), rest, [], ⟨rfl, rfl⟩, ⟨rfl, rfl, rfl⟩, rfl⟩

/-- An attribute is read out of the bytes that its header declares. If there is no reader for its
body, it is skipped with all of them; otherwise, the reader is run on them alone. -/
theorem reads_readWith_bodyReader {nested : Nat → Reader (List Attribute)}
    {result : Option Attribute} :
    (readWith pool nested).Reads input reports result rest ↔
      ∃ header body, pool.IsString header.name ∧ pool.textLossy header.name = .ok header.text ∧
        body.length = header.length.toNat ∧
        input = headerBytes header.name header.length ++ body ++ rest ∧
        ((bodyReader? pool header (nested header.length.toNat) = none ∧ result = none ∧
            reports = [.skippedAttribute header.text header.length]) ∨
          ∃ reader before attr unused,
            bodyReader? pool header (nested header.length.toNat) = some reader ∧
            reader.Reads body before attr unused ∧ result = some attr ∧
            reports = before ++ unusedReport header unused) := by
  rw [readWith, Reader.reads_bind_of_silent fun _ _ _ _ => reads_readHeader]
  simp only [Reader.reads_bytes_bind]
  constructor
  · rintro ⟨header, _, ⟨hstring, htext, rfl⟩, body, _, ⟨hlen, rfl⟩, h⟩
    refine ⟨header, body, hstring, htext, hlen, ?_⟩
    split at h
    · next hnone =>
      simp only [Reader.reads_bind, Reader.reads_report, Reader.reads_pure] at h
      obtain ⟨_, _, _, _, ⟨rfl, rfl⟩, ⟨rfl, rfl, rfl⟩, rfl⟩ := h
      exact ⟨by simp, .inl ⟨hnone, rfl, rfl⟩⟩
    · next reader hreader =>
      simp only [Reader.reads_within_bind, reads_reportUnused] at h
      obtain ⟨before, attr, unused, _, hattr, ⟨rfl, rfl, rfl⟩, rfl⟩ := h
      exact ⟨by simp, .inr ⟨reader, before, attr, unused, hreader, hattr, rfl, rfl⟩⟩
  · rintro ⟨header, body, hstring, htext, hlen, rfl, h⟩
    refine ⟨header, body ++ rest, ⟨hstring, htext, by simp⟩, body, rest, ⟨hlen, rfl⟩, ?_⟩
    obtain ⟨hnone, rfl, rfl⟩ | ⟨reader, before, attr, unused, hreader, hattr, rfl, rfl⟩ := h
    · simp only [hnone, Reader.reads_bind, Reader.reads_report, Reader.reads_pure]
      exact ⟨_, (), rest, [], ⟨rfl, rfl⟩, ⟨rfl, trivial, rfl⟩, rfl⟩
    · simp only [hreader, Reader.reads_within_bind, reads_reportUnused]
      exact ⟨before, attr, unused, _, hattr, ⟨rfl, rfl, trivial⟩, rfl⟩

/-- An attribute is read out of the bytes that its header declares. If its name is not known, it is
skipped with all of them; otherwise, its contents stand at the front of them. -/
theorem reads_readWith {nested : Nat → Reader (List Attribute)} {result : Option Attribute} :
    (readWith pool nested).Reads input reports result rest ↔
      ∃ header body, pool.IsString header.name ∧ pool.textLossy header.name = .ok header.text ∧
        body.length = header.length.toNat ∧
        input = headerBytes header.name header.length ++ body ++ rest ∧
        ((bodyReader? pool header (nested header.length.toNat) = none ∧ result = none ∧
            reports = [.skippedAttribute header.text header.length]) ∨
          ∃ attr before unused, result = some attr ∧ attr.name = header.name ∧
            attr.kindName = header.text ∧ attr.HasSoundContents pool ∧
            attr.ReadsContents (nested header.length.toNat) body before unused ∧
            reports = before ++ unusedReport header unused) := by
  rw [reads_readWith_bodyReader]
  constructor
  · rintro ⟨header, body, hstring, htext, hlen, hinput, h⟩
    refine ⟨header, body, hstring, htext, hlen, hinput, ?_⟩
    obtain hskipped | ⟨reader, before, attr, unused, hreader, hattr, hresult, hreports⟩ := h
    · exact .inl hskipped
    · obtain ⟨hname, hkind, hsound, hcontents⟩ := readsContents_of_bodyReader hreader hattr
      exact .inr ⟨attr, before, unused, hresult, hname, hkind, hsound, hcontents, hreports⟩
  · rintro ⟨header, body, hstring, htext, hlen, hinput, h⟩
    refine ⟨header, body, hstring, htext, hlen, hinput, ?_⟩
    obtain hskipped | ⟨attr, before, unused, hresult, hname, hkind, hsound, hcontents, hreports⟩ :=
      h
    · exact .inl hskipped
    · obtain ⟨reader, hreader, hattr⟩ :=
        exists_bodyReader_of_readsContents hname hkind hsound hcontents
      exact .inr ⟨reader, before, attr, unused, hreader, hattr, hresult, hreports⟩

/-- Of the attributes that are counted, those that are not skipped are yielded. -/
theorem reads_readListWith {nested : Nat → Reader (List Attribute)} {attributes : List Attribute} :
    (readListWith pool nested).Reads input reports attributes rest ↔
      ∃ count results between, input = Bytes.ofU2 count ++ between ∧
        (Reader.times count.toNat (readWith pool nested)).Reads between reports results rest ∧
        attributes = results.filterMap id := by
  simp only [readListWith, Reader.reads_map, Reader.reads_table]
  constructor
  · rintro ⟨results, ⟨count, between, rfl, hresults⟩, rfl⟩
    exact ⟨count, results, between, rfl, hresults, rfl⟩
  · rintro ⟨count, results, between, rfl, hresults, rfl⟩
    exact ⟨results, ⟨count, between, rfl, hresults⟩, rfl⟩

/-- What holds of every attribute that is read holds of all that are yielded. -/
theorem forall_of_reads_readListWith {P : Attribute → Prop}
    {nested : Nat → Reader (List Attribute)} {attributes : List Attribute}
    (hread : ∀ ⦃input reports attr rest⦄,
      (readWith pool nested).Reads input reports (some attr) rest → P attr)
    (h : (readListWith pool nested).Reads input reports attributes rest) :
    ∀ attr ∈ attributes, P attr := by
  obtain ⟨count, results, between, -, hresults, rfl⟩ := reads_readListWith.mp h
  have hall : ∀ result ∈ results, ∀ attr, result = some attr → P attr := by
    refine Reader.forall_of_reads_times ?_ hresults
    rintro input reports _ rest hresult attr rfl
    exact hread hresult
  intro attr hmem
  obtain ⟨result, hmem, hresult⟩ := List.mem_filterMap.mp hmem
  exact hall result hmem attr hresult

/-- No more attributes are yielded than two bytes can count. -/
theorem length_lt_of_reads_readListWith {nested : Nat → Reader (List Attribute)}
    {attributes : List Attribute}
    (h : (readListWith pool nested).Reads input reports attributes rest) :
    attributes.length < 0x10000 := by
  obtain ⟨count, results, between, -, hresults, rfl⟩ := reads_readListWith.mp h
  have hlen := Reader.length_of_reads_times hresults
  have hle := List.length_filterMap_le id results
  have hlt := count.toNat_lt
  omega

end Attribute

end JavaClass
