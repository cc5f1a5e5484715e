import JavaClass.Proofs.ClassFile.Delimited

/-!
# Attributes end where they declare

An attribute is read out of the bytes that its header declares, and out of no others. What stands
behind it is not looked at, however its body is made up and whatever the lengths and counts in the
body say; a body that does not suffice is an error. All this holds at every depth, as the attributes
of a method body are read as any others are.

- `Attribute.read_eq`: how the reader of attributes calls itself.
- `Attribute.Frame`: a header, and as many bytes as it declares.
- `Attribute.Frame.Yields`: what becomes of an attribute.
- `Attribute.reads_read`, `Attribute.reads_readList`: what is read off the front of an input.
- `Attribute.isBounded`: how far declared lengths bound what is read.
-/

namespace JavaClass

open Reader

theorem LineNumber.delimited_read : LineNumber.read.Delimited :=
  delimited_u2.bind fun _ => delimited_u2.map _

theorem ExceptionHandler.delimited_read : ExceptionHandler.read.Delimited :=
  delimited_u2.bind fun _ => delimited_u2.bind fun _ => delimited_u2.bind fun _ =>
    delimited_u2.map _

namespace Attribute

variable {pool : ConstantPool} {input rest : Bytes} {reports : List Diagnostic}

/-! ## Nested attributes

The readers hand on the length of a body only so that reading ends. -/

/-- The body of a method is read with any reader for its attributes that does the same on inputs as
short as the body. -/
theorem agreeUpTo_readCode {n : Nat} {nested nested' : Reader (List Attribute)}
    (name : ConstantIndex) (h : AgreeUpTo n nested nested') :
    AgreeUpTo n (readCode name nested) (readCode name nested') :=
  .bind_right delimited_u2 fun _ => .bind_right delimited_u2 fun _ =>
    .bind_right delimited_u4 fun _ => .bind_right (delimited_bytes _) fun code =>
      .bind_right (delimited_within code _) fun (_, _) =>
        .bind_right ExceptionHandler.delimited_read.table fun _ => h.bind _

/-- A body is shorter than what it is read from, so readers for the attributes in it need to agree
on shorter inputs only. -/
theorem agreeUpTo_readWith {n : Nat} {nested nested' : Nat → Reader (List Attribute)}
    (h : ∀ inner < n, AgreeUpTo inner (nested inner) (nested' inner)) :
    AgreeUpTo n (readWith pool nested) (readWith pool nested') := by
  intro input hlen
  refine bind_congr_of_reads fun _ header _ hheader =>
    bind_congr_of_reads fun _ body rest hbody => ?_
  obtain ⟨-, -, -, rfl⟩ := reads_readHeader.mp hheader
  obtain ⟨-, hlenBody, rfl⟩ := reads_bytes.mp hbody
  have hlt : header.length.toNat < n := by
    rw [List.length_append, length_headerBytes, headerLength, List.length_append, hlenBody] at hlen
    omega
  have hcode := within_congr
    (agreeUpTo_readCode header.name (h _ hlt) body (Nat.le_of_eq hlenBody))
  -- Only method bodies make use of the reader for attributes.
  unfold bodyReader?
  split_ifs
  · rfl
  · rfl
  · simp only [hcode]
  · rfl
  · rfl

/-- The same holds of lists of attributes. -/
theorem agreeUpTo_readListWith {n : Nat} {nested nested' : Nat → Reader (List Attribute)}
    (h : ∀ inner < n, AgreeUpTo inner (nested inner) (nested' inner)) :
    AgreeUpTo n (readListWith pool nested) (readListWith pool nested') :=
  ((agreeUpTo_readWith h).table (delimited_readWith pool nested)).bind _

/-- Out of the body of a method, attributes are read as any others are. -/
theorem agreeUpTo_readNested (length : Nat) :
    AgreeUpTo length (readNested pool length) (readList pool) := by
  rw [readNested]
  refine agreeUpTo_readListWith fun inner hlt => ?_
  rw [if_pos hlt]
  exact .refl inner _

/-- The attributes in an attribute are read as any others are. -/
theorem read_eq (pool : ConstantPool) : read pool = readWith pool fun _ => readList pool :=
  funext fun input =>
    agreeUpTo_readWith (fun inner _ => agreeUpTo_readNested inner) input (Nat.le_refl _)

/-! ## Bodies -/

/-- The names of attributes that are not skipped. -/
def knownNames : List String := [sourceFileName, constantValueName, codeName, lineNumberTableName]

/-- There is no reader for the body of an attribute exactly if its name is not known. -/
theorem bodyReader?_eq_none_iff {header : Header} {nested : Reader (List Attribute)} :
    bodyReader? pool header nested = none ↔ header.text ∉ knownNames := by
  unfold bodyReader? knownNames
  split_ifs <;> simp [*]

/-- The body of a method ends where its attributes do. -/
theorem delimited_readCode (name : ConstantIndex) {nested : Reader (List Attribute)}
    (h : nested.Delimited) : (readCode name nested).Delimited :=
  delimited_u2.bind fun _ => delimited_u2.bind fun _ => delimited_u4.bind fun _ =>
    (delimited_bytes _).bind fun code => (delimited_within code _).bind fun (_, _) =>
      ExceptionHandler.delimited_read.table.bind fun _ => h.map _

/-- A body ends where its parts do. -/
theorem delimited_bodyReader {header : Header} {nested : Reader (List Attribute)}
    {parser : Reader Attribute} (hnested : nested.Delimited)
    (h : bodyReader? pool header nested = some parser) : parser.Delimited := by
  unfold bodyReader? at h
  split_ifs at h <;> cases h
  · exact delimited_u2.bind fun _ => (delimited_ofExcept _).map _
  · exact delimited_u2.map _
  · exact delimited_readCode header.name hnested
  · exact LineNumber.delimited_read.table.map _

/-- The report about unused bytes is there exactly if fewer bytes were used than declared, and says
how many were. -/
theorem unusedReport_eq {header : Header} {used unused : Bytes} {consumed : UInt32}
    (hlen : used.length + unused.length = header.length.toNat)
    (hconsumed : consumed.toNat = used.length) :
    unusedReport header unused =
      if used.length < header.length.toNat then
        [.unusedBytes header.text header.length consumed] else [] := by
  have hsub := @toNat_length_sub header unused (by omega)
  obtain rfl : consumed = header.length - UInt32.ofNat unused.length := by
    rw [← UInt32.toNat_inj]
    omega
  cases unused with
  | nil =>
    rw [List.length_nil, Nat.add_zero] at hlen
    rw [if_neg (by omega)]
    rfl
  | cons byte unused =>
    rw [List.length_cons] at hlen
    rw [if_pos (by omega)]
    rfl

/-! ## Frames -/

/-- An attribute as it stands in a class file: a header with a name out of the pool, and as many
bytes as the header declares. -/
structure Frame (pool : ConstantPool) where
  /-- The header. -/
  header : Header
  /-- The bytes behind the header. -/
  body : Bytes
  /-- There is a string at the index of the name. -/
  isString : pool.IsString header.name
  /-- The name is this string. -/
  text_eq : pool.textLossy header.name = .ok header.text
  /-- There are as many bytes as declared. -/
  length_body : body.length = header.length.toNat

namespace Frame

variable {frame : Frame pool} {result : Option Attribute}

/-- The bytes of an attribute. -/
def toBytes (frame : Frame pool) : Bytes :=
  headerBytes frame.header.name frame.header.length ++ frame.body

theorem length_toBytes (frame : Frame pool) :
    frame.toBytes.length = headerLength + frame.header.length.toNat := by
  rw [toBytes, List.length_append, length_headerBytes, frame.length_body]

/-- The reader for the body of an attribute of a known kind. Attributes in it are read as any others
are. -/
def parser? (frame : Frame pool) : Option (Reader Attribute) :=
  bodyReader? pool frame.header (readList pool)

/-- What becomes of an attribute, and what is reported about it. -/
inductive Yields (frame : Frame pool) : List Diagnostic → Option Attribute → Prop where
  /-- If its name is not known, nothing is made of it, and this is reported. -/
  | skipped (h : frame.header.text ∉ knownNames) :
    Yields frame [.skippedAttribute frame.header.text frame.header.length] none
  /-- Otherwise its body is read on its own. If fewer bytes are used than there are, it is reported
  how many are used. -/
  | known {parser : Reader Attribute} {before : List Diagnostic} {attr : Attribute}
    {used unused : Bytes} {consumed : UInt32} (hparser : frame.parser? = some parser)
    (hbody : frame.body = used ++ unused) (h : parser.Reads frame.body before attr unused)
    (hconsumed : consumed.toNat = used.length) :
    Yields frame
      (before ++ if used.length < frame.header.length.toNat then
        [.unusedBytes frame.header.text frame.header.length consumed] else [])
      (some attr)

theorem parser?_eq_none_iff : frame.parser? = none ↔ frame.header.text ∉ knownNames :=
  bodyReader?_eq_none_iff

theorem delimited_of_eq_some {parser : Reader Attribute} (h : frame.parser? = some parser) :
    parser.Delimited :=
  delimited_bodyReader (delimited_readList pool) h

/-- Of an attribute becomes what the reader for its body makes of it, if there is one. -/
theorem yields_iff :
    frame.Yields reports result ↔
      (frame.parser? = none ∧ result = none ∧
          reports = [.skippedAttribute frame.header.text frame.header.length]) ∨
        ∃ parser before attr unused, frame.parser? = some parser ∧
          parser.Reads frame.body before attr unused ∧ result = some attr ∧
          reports = before ++ unusedReport frame.header unused := by
  have hlen := frame.length_body
  constructor
  · intro h
    cases h with
    | skipped h => exact .inl ⟨parser?_eq_none_iff.mpr h, rfl, rfl⟩
    | @known parser before attr used unused consumed hparser hbody h hconsumed =>
      rw [hbody, List.length_append] at hlen
      exact .inr ⟨parser, before, attr, unused, hparser, h, rfl,
        by rw [unusedReport_eq hlen hconsumed]⟩
  · rintro (⟨hnone, rfl, rfl⟩ | ⟨parser, before, attr, unused, hparser, h, rfl, rfl⟩)
    · exact .skipped (parser?_eq_none_iff.mp hnone)
    · -- What the reader left is the end of the body, and what it used is in front of it.
      obtain ⟨used, hbody⟩ := (delimited_of_eq_some hparser).suffix h
      rw [← hbody, List.length_append] at hlen
      have hconsumed : (UInt32.ofNat used.length).toNat = used.length := by
        have hlt := frame.header.length.toNat_lt
        exact UInt32.toNat_ofNat_of_lt (by rw [UInt32.size]; omega)
      rw [unusedReport_eq hlen hconsumed]
      exact .known hparser hbody.symm h hconsumed

/-- What is made of an attribute has its name and is of the kind that the name tells. -/
theorem Yields.kindName_eq {attr : Attribute} (h : frame.Yields reports (some attr)) :
    attr.name = frame.header.name ∧ attr.kindName = frame.header.text := by
  cases h with
  | known hparser hbody h hconsumed =>
    obtain ⟨hname, hkind, -, -⟩ := readsContents_of_bodyReader hparser h
    exact ⟨hname, hkind⟩

/-- Nothing is made of an attribute exactly if its name is not known. -/
theorem Yields.eq_none_iff (h : frame.Yields reports result) :
    result = none ↔ frame.header.text ∉ knownNames := by
  cases h with
  | skipped h => exact ⟨fun _ => h, fun _ => rfl⟩
  | known hparser hbody h hconsumed =>
    rw [← parser?_eq_none_iff, hparser]
    exact ⟨nofun, nofun⟩

/-- The header of an attribute is read where the attribute stands. -/
theorem reads_header (frame : Frame pool) (more : Bytes) :
    (readHeader pool).Reads (frame.toBytes ++ more) [] frame.header (frame.body ++ more) :=
  reads_readHeader.mpr ⟨rfl, frame.isString, frame.text_eq, List.append_assoc ..⟩

/-- The body of an attribute is what is taken off the input behind the header. -/
theorem reads_body (frame : Frame pool) (more : Bytes) :
    (Reader.bytes frame.header.length.toNat).Reads (frame.body ++ more) [] frame.body more :=
  reads_bytes.mpr ⟨rfl, frame.length_body, rfl⟩

/-- If the body of an attribute is refused, the attribute is, whatever stands behind it. -/
theorem fails_read {parser : Reader Attribute} {cause : Error}
    (hparser : frame.parser? = some parser) (h : parser.Fails frame.body reports cause)
    (more : Bytes) : (read pool).Fails (frame.toBytes ++ more) reports cause := by
  rw [parser?] at hparser
  rw [read_eq, readWith]
  refine fails_bind.mpr (.inr ⟨_, _, _, _, frame.reads_header more, ?_, rfl⟩)
  refine fails_bind.mpr (.inr ⟨_, _, _, _, frame.reads_body more, ?_, rfl⟩)
  rw [hparser]
  exact fails_bind.mpr (.inl (fails_within.mpr h))

end Frame

/-- An attribute that was taken off a class file: how it stood there, and what became of it. -/
structure Taken (pool : ConstantPool) extends Frame pool where
  /-- What was reported about it. -/
  reports : List Diagnostic
  /-- What was made of it. -/
  result : Option Attribute
  /-- This is what becomes of it. -/
  yields : toFrame.Yields reports result

/-! ## Reading -/

/-- An attribute is read off the front of an input in which it stands there. -/
theorem reads_read {result : Option Attribute} :
    (read pool).Reads input reports result rest ↔
      ∃ frame : Frame pool, frame.Yields reports result ∧ input = frame.toBytes ++ rest := by
  rw [read_eq, reads_readWith_bodyReader]
  constructor
  · rintro ⟨header, body, hstring, htext, hlen, rfl, h⟩
    exact ⟨⟨header, body, hstring, htext, hlen⟩, Frame.yields_iff.mpr h, rfl⟩
  · rintro ⟨frame, h, rfl⟩
    exact ⟨frame.header, frame.body, frame.isString, frame.text_eq, frame.length_body, rfl,
      Frame.yields_iff.mp h⟩

/-- Attributes are read one after another from where they stand one after another. -/
theorem reads_times_read {n : Nat} {results : List (Option Attribute)} :
    (times n (read pool)).Reads input reports results rest ↔
      ∃ taken : List (Taken pool), taken.length = n ∧
        input = taken.flatMap (·.toBytes) ++ rest ∧ results = taken.map (·.result) ∧
        reports = taken.flatMap (·.reports) := by
  -- The first attribute ends where it declares, which is where the others start.
  induction n generalizing input reports results with
  | zero =>
    rw [reads_times_zero]
    constructor
    · rintro ⟨rfl, rfl, rfl⟩
      exact ⟨[], rfl, rfl, rfl, rfl⟩
    · rintro ⟨taken, hlen, rfl, rfl, rfl⟩
      rw [List.length_eq_zero_iff] at hlen
      subst hlen
      exact ⟨rfl, rfl, rfl⟩
  | succ n ih =>
    simp only [reads_times_succ, reads_read, ih]
    constructor
    · rintro ⟨before, result, _, _, _, ⟨frame, hyields, rfl⟩, ⟨taken, rfl, rfl, rfl, rfl⟩, rfl, rfl⟩
      exact ⟨⟨frame, before, result, hyields⟩ :: taken, rfl, by simp, rfl, rfl⟩
    · rintro ⟨taken, hlen, rfl, rfl, rfl⟩
      obtain ⟨first, others, rfl⟩ := List.exists_cons_of_length_eq_add_one hlen
      exact ⟨first.reports, first.result, _, _, _, ⟨first.toFrame, first.yields, by simp⟩,
        ⟨others, by simpa using hlen, rfl, rfl, rfl⟩, rfl, rfl⟩

/-- A list of attributes is read from where it stands behind its count. -/
theorem reads_readList {attributes : List Attribute} :
    (readList pool).Reads input reports attributes rest ↔
      ∃ (count : UInt16) (taken : List (Taken pool)), taken.length = count.toNat ∧
        input = Bytes.ofU2 count ++ taken.flatMap (·.toBytes) ++ rest ∧
        attributes = taken.filterMap (·.result) ∧ reports = taken.flatMap (·.reports) := by
  simp only [readList, reads_readListWith]
  constructor
  · rintro ⟨count, results, _, rfl, hresults, rfl⟩
    obtain ⟨taken, hlen, rfl, rfl, rfl⟩ := reads_times_read.mp hresults
    exact ⟨count, taken, hlen, by simp, by simp, rfl⟩
  · rintro ⟨count, taken, hlen, rfl, rfl, rfl⟩
    exact ⟨count, taken.map (·.result), taken.flatMap (·.toBytes) ++ rest, by simp,
      reads_times_read.mpr ⟨taken, hlen, rfl, rfl, rfl⟩, by simp⟩

/-- How far the lengths that attributes declare bound what is read. -/
structure IsBounded (pool : ConstantPool) : Prop where
  /-- Exactly the header and the declared bytes are taken off an input that is not refused. -/
  consumed : ∀ input reports result rest, (read pool).Reads input reports result rest →
    ∃ frame : Frame pool, input = frame.toBytes ++ rest ∧
      frame.toBytes.length = headerLength + frame.header.length.toNat ∧
      frame.Yields reports result
  /-- They alone decide what is read and reported, whatever stands behind them. -/
  alone : ∀ (frame : Frame pool) reports result, frame.Yields reports result →
    ∀ more, (read pool).Reads (frame.toBytes ++ more) reports result more
  /-- Exactly attributes of unknown names are skipped. -/
  eq_none_iff : ∀ (frame : Frame pool) reports result, frame.Yields reports result →
    (result = none ↔ frame.header.text ∉ knownNames)
  /-- What is not skipped has the name of the header, and is of the kind that the name tells. -/
  kindName_eq : ∀ (frame : Frame pool) reports attr, frame.Yields reports (some attr) →
    attr.name = frame.header.name ∧ attr.kindName = frame.header.text
  /-- If the body is refused, the attribute is refused for the same cause, whatever follows. -/
  refused : ∀ (frame : Frame pool) parser reports cause, frame.parser? = some parser →
    parser.Fails frame.body reports cause →
    ∀ more, (read pool).Fails (frame.toBytes ++ more) reports cause
  /-- If the reader for the body asks for more than the body, the input ends too early for it,
  whatever follows. -/
  short : ∀ (frame : Frame pool) parser, frame.parser? = some parser →
    parser.AsksBeyond frame.body → ∃ reports ending,
      ∀ more, (read pool).Fails (frame.toBytes ++ more) reports (.endOfInput ending)
  /-- In particular it does if the reader could go on with other bytes behind the body and would use
  some of them, even if it is these bytes that follow. -/
  cut : ∀ (frame : Frame pool) parser behind reports attr rest, frame.parser? = some parser →
    parser.Reads (frame.body ++ behind) reports attr rest → rest.length < behind.length →
    ∃ before ending, before <+: reports ∧
      ∀ more, (read pool).Fails (frame.toBytes ++ more) before (.endOfInput ending)
  /-- A list of attributes are as many as are counted, one behind the other. Those that are not
  skipped are yielded in order, and what is reported about each is reported in order. -/
  list : ∀ input reports attributes rest,
    (readList pool).Reads input reports attributes rest ↔
      ∃ (count : UInt16) (taken : List (Taken pool)), taken.length = count.toNat ∧
        input = Bytes.ofU2 count ++ taken.flatMap (·.toBytes) ++ rest ∧
        attributes = taken.filterMap (·.result) ∧ reports = taken.flatMap (·.reports)

/-- With any pool, what is read of an attribute is bounded by the length that it declares. -/
theorem isBounded (pool : ConstantPool) : IsBounded pool where
  consumed := by
    intro input reports result rest h
    obtain ⟨frame, hyields, rfl⟩ := reads_read.mp h
    exact ⟨frame, rfl, frame.length_toBytes, hyields⟩
  alone := fun frame _ _ hyields _ => reads_read.mpr ⟨frame, hyields, rfl⟩
  eq_none_iff := fun _ _ _ h => h.eq_none_iff
  kindName_eq := fun _ _ _ h => h.kindName_eq
  refused := fun _ _ _ _ hparser h more => Frame.fails_read hparser h more
  short := by
    intro frame parser hparser hasks
    obtain ⟨reports, ending, hfails⟩ :=
      (Frame.delimited_of_eq_some hparser).fails_of_asksBeyond hasks
    exact ⟨reports, ending, Frame.fails_read hparser hfails⟩
  cut := by
    intro frame parser behind reports attr rest hparser h hlt
    obtain ⟨before, ending, hprefix, hfails⟩ := (Frame.delimited_of_eq_some hparser).cut h hlt
    exact ⟨before, ending, hprefix, Frame.fails_read hparser hfails⟩
  list := fun _ _ _ _ => reads_readList

end Attribute

end JavaClass
