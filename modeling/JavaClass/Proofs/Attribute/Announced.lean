import JavaClass.Proofs.Attribute.Bounded
import JavaClass.Proofs.Instruction.Decoding
import JavaClass.Proofs.Reading.Conduct
import JavaClass.Proofs.Writing.Refusing

/-!
# Errors that are announced

An opcode that cannot be decoded is reported, and is then the error that ends the read. Whatever is
reported before is about something that was lost, and nothing is reported after. The opcode and its
offset stay as they were found in the code of a method body, at whatever depth the body stood.

- `Diagnostic.IsLoss`, `Error.announcement?`: what is reported about losses, and about errors.
- `Reader.Conduct.plain`, `Reader.Conduct.announcing`: what is asked of the reports that go with an
  error.
- `Attribute.IsCodeRefused`: some bytes are those of a method body whose code is refused.
- `Attribute.fails_readCode`, `Attribute.fails_readWith`: why attributes are refused.
- `Attribute.obeys_readList`: the reader of attributes announces its errors.
-/

namespace JavaClass

open Reader

/-- Something was lost: an attribute was skipped, or some of its bytes were not used. -/
def Diagnostic.IsLoss : Diagnostic → Prop
  | .skippedAttribute .. | .unusedBytes .. => True
  | .unsupportedOpcode .. | .unknownOpcode .. => False

/-- What is reported about an error before it ends a read, which is the case for opcodes only. -/
def Error.announcement? : Error → Option Diagnostic
  | .unsupportedOpcode opcode offset => some (.unsupportedOpcode opcode offset)
  | .unknownOpcode opcode offset => some (.unknownOpcode opcode offset)
  | _ => none

/-- Losses are reported, and then the error, if it is one that is reported at all. -/
def Error.IsAnnounced (cause : Error) (reports : List Diagnostic) : Prop :=
  ∃ losses, (∀ diagnostic ∈ losses, diagnostic.IsLoss) ∧
    reports = losses ++ cause.announcement?.toList

namespace Error

variable {cause : Error} {before reports : List Diagnostic}

theorem isAnnounced_toList (cause : Error) : cause.IsAnnounced cause.announcement?.toList :=
  ⟨[], List.forall_mem_nil _, rfl⟩

/-- More losses may be reported before. -/
theorem IsAnnounced.append (h : cause.IsAnnounced reports)
    (hbefore : ∀ diagnostic ∈ before, diagnostic.IsLoss) :
    cause.IsAnnounced (before ++ reports) := by
  obtain ⟨losses, hlosses, rfl⟩ := h
  exact ⟨before ++ losses, List.forall_mem_append.mpr ⟨hbefore, hlosses⟩,
    (List.append_assoc ..).symm⟩

/-- An error that is never reported is announced by nothing. -/
theorem isAnnounced_nil (h : cause.announcement? = none) : cause.IsAnnounced [] := by
  have hnil := isAnnounced_toList cause
  rwa [h] at hnil

end Error

namespace Reader.Conduct

/-- Nothing is reported, and no error is one that would have to be. -/
def plain : Conduct := .silent (fun cause => cause.announcement? = none) fun _ => rfl

/-- Losses are reported, and errors are announced. An error that is reported is found in a part of
the input. -/
def announcing (Found : Bytes → Error → Prop) : Conduct where
  Reported reports := ∀ diagnostic ∈ reports, diagnostic.IsLoss
  Failed input reports cause := cause.IsAnnounced reports ∧
    (cause.announcement?.isSome → ∃ part, part <:+: input ∧ Found part cause)
  reported_nil := List.forall_mem_nil _
  reported_append := fun hbefore hafter => List.forall_mem_append.mpr ⟨hbefore, hafter⟩
  failed_append := by
    rintro input part before after cause hpart hbefore ⟨hannounced, hfound⟩
    refine ⟨hannounced.append hbefore, fun hsome => ?_⟩
    obtain ⟨inner, hinner, h⟩ := hfound hsome
    exact ⟨inner, hinner.trans hpart, h⟩
  failed_endOfInput := fun _ _ => ⟨Error.isAnnounced_nil rfl, nofun⟩

variable {Found : Bytes → Error → Prop}

/-- An error that nothing has to be reported about is announced by nothing. -/
theorem announcing_failed_of_plain {input : Bytes} {reports : List Diagnostic} {cause : Error}
    (h : plain.Failed input reports cause) : (announcing Found).Failed input reports cause := by
  obtain ⟨rfl, hcause⟩ := h
  refine ⟨Error.isAnnounced_nil hcause, fun hsome => ?_⟩
  rw [hcause] at hsome
  cases hsome

/-- What reports nothing and has nothing to announce announces all that it has to. -/
theorem obeys_announcing {α : Type} {reader : Reader α} (h : reader.Obeys plain) :
    reader.Obeys (announcing Found) := by
  refine h.mono ?_ fun _ _ _ => announcing_failed_of_plain
  rintro _ rfl
  exact List.forall_mem_nil _

end Reader.Conduct

/-- The first of two readers fails plainly, or it reads something silently and the second one fails
on what is left. -/
theorem Reader.fails_bind_of_plain {α β : Type} {first : Reader α} {second : α → Reader β}
    (hfirst : first.Obeys Conduct.plain) {input : Bytes} {reports : List Diagnostic} {cause : Error}
    (h : (first >>= second).Fails input reports cause) :
    Conduct.plain.Failed input reports cause ∨
      ∃ found between, first.Reads input [] found between ∧
        (second found).Fails between reports cause := by
  obtain h | ⟨before, found, between, after, hbefore, hafter, rfl⟩ := fails_bind.mp h
  · exact .inl (hfirst.failed h)
  · obtain rfl : before = [] := hfirst.reported hbefore
    exact .inr ⟨found, between, hbefore, hafter⟩

/-! ## Indices -/

namespace ConstantPool

variable {pool : ConstantPool} {index : ConstantIndex} {cause : Error}

/-- That there is no constant at an index is never reported, nor is what is made of a constant if no
error about that is. -/
theorem announcement?_of_get_bind {α : Type} {next : Constant → Except Error α}
    (hnext : ∀ constant, next constant = .error cause → cause.announcement? = none)
    (h : (pool.get index >>= next) = .error cause) : cause.announcement? = none := by
  obtain hget | ⟨constant, -, h⟩ := bind_eq_error.mp h
  · unfold get at hget
    split at hget <;> cases hget
    rfl
  · exact hnext constant h

theorem obeys_stringIndex (pool : ConstantPool) (index : ConstantIndex) :
    (ofExcept (pool.stringIndex index)).Obeys Conduct.plain := by
  refine obeys_ofExcept fun cause h _ => ⟨rfl, announcement?_of_get_bind (fun constant h => ?_) h⟩
  split at h <;> cases h
  rfl

theorem obeys_textLossy (pool : ConstantPool) (index : ConstantIndex) :
    (ofExcept (pool.textLossy index)).Obeys Conduct.plain := by
  refine obeys_ofExcept fun cause h _ => ⟨rfl, announcement?_of_get_bind (fun constant h => ?_) h⟩
  split at h <;> cases h
  rfl

theorem obeys_classIndex (pool : ConstantPool) (index : ConstantIndex) :
    (ofExcept (pool.classIndex index)).Obeys Conduct.plain := by
  refine obeys_ofExcept fun cause h _ => ⟨rfl, announcement?_of_get_bind (fun constant h => ?_) h⟩
  split at h <;> cases h
  rfl

end ConstantPool

theorem LineNumber.obeys_read : LineNumber.read.Obeys Conduct.plain :=
  obeys_u2.bind fun _ => obeys_u2.map _

theorem ExceptionHandler.obeys_read : ExceptionHandler.read.Obeys Conduct.plain :=
  obeys_u2.bind fun _ => obeys_u2.bind fun _ => obeys_u2.bind fun _ => obeys_u2.map _

/-- What stops decoding is reported, if it is an opcode. -/
theorem Instruction.Stops.reports_eq {place : Nat} {stop : Bytes} {reports : List Diagnostic}
    {cause : Error} (h : Stops place stop reports cause) :
    reports = cause.announcement?.toList := by
  cases h <;> rfl

namespace Attribute

variable {pool : ConstantPool} {input : Bytes} {reports : List Diagnostic} {cause : Error}

/-! ## Method bodies -/

theorem obeys_readHeader (pool : ConstantPool) : (readHeader pool).Obeys Conduct.plain :=
  obeys_u2.bind fun _ => (pool.obeys_stringIndex _).bind fun _ =>
    (pool.obeys_textLossy _).bind fun _ => obeys_u4.map _

/-- Some bytes as the contents of a method body: two limits, a number of bytes, as many bytes of
code, and what stands behind them. -/
structure CodeArray (contents : Bytes) where
  /-- The greatest depth of the operand stack. -/
  maxStack : UInt16
  /-- The number of local variables. -/
  maxLocals : UInt16
  /-- The number of bytes of the code. -/
  length : UInt32
  /-- The code. -/
  code : Bytes
  /-- The bytes behind the code. -/
  behind : Bytes
  /-- They stand one after the other. -/
  contents_eq : contents =
    Bytes.ofU2 maxStack ++ Bytes.ofU2 maxLocals ++ Bytes.ofU4 length ++ code ++ behind
  /-- There are as many bytes of code as the number says. -/
  length_code : code.length = length.toNat

/-- The code of a method body with these contents is refused, and nothing but the error is
reported. -/
def HasRefusedCode (contents : Bytes) (cause : Error) : Prop :=
  ∃ array : CodeArray contents,
    Instruction.decodeAll array.code = ⟨cause.announcement?.toList, .error cause⟩

/-- A method body is refused for what is never reported, for its code, or for an attribute behind
it. -/
theorem fails_readCode {name : ConstantIndex} {nested : Reader (List Attribute)}
    (h : (readCode name nested).Fails input reports cause) :
    Conduct.plain.Failed input reports cause ∨
      (reports = cause.announcement?.toList ∧ HasRefusedCode input cause) ∨
        ∃ behind, behind <:+ input ∧ nested.Fails behind reports cause := by
  -- What stands in front of the code is read silently.
  obtain hstack | ⟨maxStack, _, hstack, hafterStack⟩ := fails_bind_of_plain obeys_u2 h
  · exact .inl hstack
  obtain hlocals | ⟨maxLocals, _, hlocals, hafterLocals⟩ := fails_bind_of_plain obeys_u2 hafterStack
  · exact .inl hlocals
  obtain hlength | ⟨length, _, hlength, hafterLength⟩ := fails_bind_of_plain obeys_u4 hafterLocals
  · exact .inl hlength
  obtain hcode | ⟨code, behind, hcode, hafterCode⟩ :=
    fails_bind_of_plain (obeys_bytes _) hafterLength
  · exact .inl hcode
  obtain ⟨-, rfl⟩ := reads_u2.mp hstack
  obtain ⟨-, rfl⟩ := reads_u2.mp hlocals
  obtain ⟨-, rfl⟩ := reads_u4.mp hlength
  obtain ⟨-, hlen, rfl⟩ := reads_bytes.mp hcode
  obtain hdecode | ⟨_, ⟨instructions, unused⟩, _, _, hdecode, hafterDecode, rfl⟩ :=
    fails_bind.mp hafterCode
  · -- What stops decoding is the one thing that is reported about the code.
    have hdecode := fails_within.mp hdecode
    obtain ⟨place, -, -, hstops⟩ := (Instruction.decodesExactly code).stopped _ _ hdecode
    obtain rfl := hstops.reports_eq
    exact .inr (.inl ⟨rfl, ⟨maxStack, maxLocals, length, code, behind,
      by simp only [List.append_assoc], hlen⟩, hdecode⟩)
  · -- Nothing is reported about code that decodes, nor about handlers.
    obtain ⟨hfound, rfl⟩ := reads_within.mp hdecode
    obtain ⟨rfl, -⟩ := Instruction.reads_decodeToEnd.mp hfound
    obtain hhandlers | ⟨handlers, between, hhandlers, hnested⟩ :=
      fails_bind_of_plain ExceptionHandler.obeys_read.table hafterDecode
    · exact .inl hhandlers
    · have hsuffix := ExceptionHandler.obeys_read.table.suffix hhandlers
      refine .inr (.inr ⟨between, hsuffix.trans ?_, fails_map.mp hnested⟩)
      simp only [← List.append_assoc]
      exact List.suffix_append ..

/-! ## Attributes -/

/-- A body is refused for what is never reported, unless it is the body of a method. -/
theorem fails_bodyReader {header : Header} {nested : Reader (List Attribute)}
    {parser : Reader Attribute} (hparser : bodyReader? pool header nested = some parser)
    (h : parser.Fails input reports cause) :
    Conduct.plain.Failed input reports cause ∨
      header.text = codeName ∧
        ((reports = cause.announcement?.toList ∧ HasRefusedCode input cause) ∨
          ∃ behind, behind <:+ input ∧ nested.Fails behind reports cause) := by
  unfold bodyReader? at hparser
  split_ifs at hparser with hsource hconstant hcode hlines <;> cases hparser
  · have hobeys := obeys_u2.bind fun index => (pool.obeys_stringIndex index).map
      (Attribute.sourceFile header.name)
    exact .inl (hobeys.failed h)
  · exact .inl ((obeys_u2.map _).failed h)
  · exact (fails_readCode h).imp_right fun h => ⟨hcode, h⟩
  · exact .inl ((LineNumber.obeys_read.table.map _).failed h)

theorem not_fails_reportUnused {header : Header} {unused : Bytes} :
    ¬ (reportUnused header unused).Fails input reports cause := by
  unfold reportUnused
  split
  · exact fails_pure
  · exact fails_report

/-- An attribute that stands at the front of some bytes is refused if it is cut off, or if its body
is. -/
theorem fails_readWith {nested : Nat → Reader (List Attribute)}
    (h : (readWith pool nested).Fails input reports cause) :
    Conduct.plain.Failed input reports cause ∨
      ∃ frame : Frame pool, frame.toBytes <+: input ∧ ∃ parser,
        bodyReader? pool frame.header (nested frame.header.length.toNat) = some parser ∧
          parser.Fails frame.body reports cause := by
  obtain hheader | ⟨header, _, hheader, hafterHeader⟩ :=
    fails_bind_of_plain (obeys_readHeader pool) h
  · exact .inl hheader
  obtain hbody | ⟨body, rest, hbody, hafterBody⟩ := fails_bind_of_plain (obeys_bytes _) hafterHeader
  · exact .inl hbody
  obtain ⟨-, hstring, htext, rfl⟩ := reads_readHeader.mp hheader
  obtain ⟨-, hlen, rfl⟩ := reads_bytes.mp hbody
  split at hafterBody
  · -- An attribute that is skipped is not refused.
    exact absurd (fails_map.mp hafterBody) fails_report
  · next parser hparser =>
    obtain hrefused | ⟨_, _, _, _, -, hunused, -⟩ := fails_bind.mp hafterBody
    · refine .inr ⟨⟨header, body, hstring, htext, hlen⟩, ?_, parser, hparser,
        fails_within.mp hrefused⟩
      rw [← List.append_assoc]
      exact List.prefix_append ..
    · -- Nor is one for bytes that its reader left.
      exact absurd (fails_map.mp hunused) not_fails_reportUnused

/-- Some bytes are those of a method body whose code is refused. -/
def IsCodeRefused (pool : ConstantPool) (part : Bytes) (cause : Error) : Prop :=
  ∃ frame : Frame pool, frame.toBytes = part ∧ frame.header.text = codeName ∧
    HasRefusedCode frame.body cause

/-- What is reported about the bytes that a reader left is that they were lost. -/
theorem isLoss_of_mem_unusedReport {header : Header} {unused : Bytes} {diagnostic : Diagnostic}
    (h : diagnostic ∈ unusedReport header unused) : diagnostic.IsLoss := by
  unfold unusedReport at h
  split at h
  · cases h
  · obtain rfl := List.mem_singleton.mp h
    trivial

/-- An attribute announces its errors if those in it do. -/
theorem obeys_readWith {nested : Nat → Reader (List Attribute)}
    (hnested : ∀ length, (nested length).Obeys (Conduct.announcing (IsCodeRefused pool))) :
    (readWith pool nested).Obeys (Conduct.announcing (IsCodeRefused pool)) where
  reported := by
    intro input reports result rest h
    obtain ⟨header, body, -, -, -, -, ⟨-, -, rfl⟩ | ⟨attr, before, unused, -, -, -, -, hcontents,
      rfl⟩⟩ := reads_readWith.mp h
    · exact List.forall_mem_singleton.mpr trivial
    · refine List.forall_mem_append.mpr ⟨?_, fun _ => isLoss_of_mem_unusedReport⟩
      -- Only attributes in the attribute have something reported.
      cases attr with
      | code body attributes =>
        obtain ⟨_, _, -, -, -, hread⟩ := hcontents
        exact (hnested _).reported hread
      | sourceFile | constantValue | lineNumberTable =>
        obtain ⟨rfl, -⟩ := hcontents
        exact List.forall_mem_nil _
  suffix := fun _ _ _ _ h => (delimited_readWith pool nested).suffix h
  failed := by
    intro input reports cause h
    obtain hplain | ⟨frame, hprefix, parser, hparser, h⟩ := fails_readWith h
    · exact Conduct.announcing_failed_of_plain hplain
    obtain hplain | ⟨htext, ⟨rfl, hrefused⟩ | ⟨behind, hsuffix, h⟩⟩ := fails_bodyReader hparser h
    · exact Conduct.announcing_failed_of_plain hplain
    · -- This is where the error comes up.
      exact ⟨cause.isAnnounced_toList, fun _ =>
        ⟨frame.toBytes, hprefix.isInfix, frame, rfl, htext, hrefused⟩⟩
    · -- The error stays as it was found in the attributes of the method body.
      have hbody : frame.body <:+ frame.toBytes := List.suffix_append ..
      have hinfix := (hsuffix.trans hbody).isInfix.trans hprefix.isInfix
      exact (Conduct.announcing _).failed_append hinfix (List.forall_mem_nil _)
        ((hnested _).failed h)

/-- A list of attributes announces its errors if attributes in them do. -/
theorem obeys_readListWith {nested : Nat → Reader (List Attribute)}
    (hnested : ∀ length, (nested length).Obeys (Conduct.announcing (IsCodeRefused pool))) :
    (readListWith pool nested).Obeys (Conduct.announcing (IsCodeRefused pool)) :=
  (obeys_readWith hnested).table.map _

/-- Errors are announced at every depth: whatever is read of attributes before an error is about a
loss, and an error about an opcode is reported last. -/
theorem obeys_readList (pool : ConstantPool) :
    (readList pool).Obeys (Conduct.announcing (IsCodeRefused pool)) := by
  refine obeys_readListWith fun length => ?_
  -- The induction is on the length of the body; a reader that would not end runs out of input.
  refine readNested_induction
    (motive := fun reader => reader.Obeys (Conduct.announcing (IsCodeRefused pool))) ?_ ?_ length
  · intro ending
    exact obeys_fail fun input => Conduct.failed_endOfInput _ input ending
  · intro nested ih
    exact obeys_readListWith ih

end Attribute

end JavaClass
