import Mathlib.Data.List.Chain
import JavaClass.Proofs.Attribute.Bounded

/-!
# How deep method bodies nest

A method body has attributes, which can be method bodies again. However long the bodies say they
are and however many attributes they count, one that is opened while another is read stands in the
bytes of the other, behind its front and a header. So it is shorter, by no less than eighteen bytes,
and how many bodies can be open at once is bounded by the length of the outermost.

- `Attribute.Opens`, `Attribute.Nests`: a method body is opened, at all or while another is read.
- `Attribute.readWithin`: reading with a budget for the bodies that are open at once.
- `Attribute.readWithin_eq`, `Attribute.exists_fails_readWithin`: a budget is enough exactly if no
  more bodies are ever open at once.
- `Attribute.length_le_of_isChain`: no more bodies are open than the length of the first allows.
- `Attribute.nestsWithinLength`: all this together.
-/

namespace JavaClass.Attribute

open Reader

variable {pool : ConstantPool} {input start : Bytes}

/-! ## Fronts of method bodies -/

/-- Reads the front of a method body: all that stands before its attributes. -/
def readFront (name : ConstantIndex) : Reader MethodBody := do
  let maxStack ← Reader.u2
  let maxLocals ← Reader.u2
  let code ← Reader.bytes (← Reader.u4).toNat
  let (instructions, _) ← Reader.within code (Instruction.decodeToEnd code.length)
  let handlers ← Reader.table ExceptionHandler.read
  return { name, maxStack, maxLocals, instructions, handlers }

/-- A method body is its front and its attributes. -/
theorem readCode_eq (name : ConstantIndex) (nested : Reader (List Attribute)) :
    readCode name nested =
      readFront name >>= fun body => nested >>= fun attributes => pure (.code body attributes) := by
  simp only [readCode, readFront, bind_assoc, pure_bind]

/-- A front knows where it ends. -/
theorem delimited_readFront (name : ConstantIndex) : (readFront name).Delimited :=
  delimited_u2.bind fun _ => delimited_u2.bind fun _ => delimited_u4.bind fun _ =>
    (delimited_bytes _).bind fun code => (delimited_within code _).bind fun (_, _) =>
      ExceptionHandler.delimited_read.table.map _

/-- The front of a method body takes up ten bytes at least. -/
theorem length_add_ten_le_of_reads_readFront (pool : ConstantPool) {name : ConstantIndex}
    {reports : List Diagnostic} {body : MethodBody} {rest : Bytes}
    (h : (readFront name).Reads input reports body rest) : rest.length + 10 ≤ input.length := by
  -- A front is read as a method body without attributes is.
  have hcode : (readCode name (pure [])).Reads input (reports ++ []) (.code body []) rest := by
    rw [readCode_eq]
    exact reads_bind.mpr ⟨reports, body, rest, [], h, rfl, rfl⟩
  obtain ⟨_, _, front, between, heq, -, ⟨hfilled, -⟩, -, hfront, rfl, hnil⟩ :=
    (reads_readCode pool).mp hcode
  obtain ⟨rfl, rfl⟩ := Attribute.code.inj heq
  obtain ⟨-, -, rfl⟩ := reads_pure.mp hnil
  have hlen := length_writeBody hfilled hfront
  rw [List.length_append]
  omega

/-! ## Open bodies -/

/-- From an input on, the body of a method is opened: a header that names it so stands there, with
as many bytes behind it as it declares. -/
def Opens (input : Bytes) (frame : Frame pool) : Prop :=
  frame.header.text = codeName ∧ frame.toBytes <+: input

/-- While a method body is read, an attribute is read from some place of its bytes on: behind its
front, a count, and fewer attributes than are counted. -/
inductive ReadsFrom (frame : Frame pool) (start : Bytes) : Prop where
  /-- The front, the count and the attributes before are read one after the other. -/
  | behind {front : MethodBody} {between first : Bytes} (count : UInt16) {earlier : Nat}
    {before after : List Diagnostic} {found : List (Option Attribute)}
    (hfront : (readFront frame.header.name).Reads frame.body before front between)
    (hcount : Reader.u2.Reads between [] count first) (hlt : earlier < count.toNat)
    (hearlier : (times earlier (read pool)).Reads first after found start) : ReadsFrom frame start

/-- While a method body is read, another one is opened. -/
def Nests (outer inner : Frame pool) : Prop := ∃ start, ReadsFrom outer start ∧ Opens start inner

/-- From an input on, no more method bodies than so many are ever open at once. Each but the first
is opened while the one before is read. -/
def OpensAtMost (pool : ConstantPool) (budget : Nat) (input : Bytes) : Prop :=
  ∀ (outer : Frame pool) (inner : List (Frame pool)), Opens input outer →
    (outer :: inner).IsChain Nests → (outer :: inner).length ≤ budget

theorem opensAtMost_zero_iff :
    OpensAtMost pool 0 input ↔ ∀ frame : Frame pool, ¬ Opens input frame := by
  constructor
  · intro h frame hopens
    have hle := h frame [] hopens (.singleton frame)
    rw [List.length_singleton] at hle
    omega
  · intro h frame _ hopens
    exact absurd hopens (h frame)

/-- While a first body is read, there is room for one less. -/
theorem opensAtMost_succ_iff {budget : Nat} :
    OpensAtMost pool (budget + 1) input ↔
      ∀ frame : Frame pool, Opens input frame →
        ∀ start, ReadsFrom frame start → OpensAtMost pool budget start := by
  constructor
  · intro h frame hopens start hstart outer inner houter hchain
    have hle := h frame (outer :: inner) hopens (.cons_cons ⟨start, hstart, houter⟩ hchain)
    exact Nat.le_of_succ_le_succ hle
  · intro h outer inner hopens hchain
    cases hchain with
    | singleton => exact Nat.succ_le_succ (Nat.zero_le budget)
    | cons_cons hnests hchain =>
      obtain ⟨start, hstart, hopens'⟩ := hnests
      exact Nat.succ_le_succ (h outer hopens start hstart _ _ hopens' hchain)

/-! ## Lengths -/

/-- A body that is opened while another is read stands in its bytes, behind a front, a count and a
header. -/
theorem Nests.exists_eq_append {outer inner : Frame pool} (h : Nests outer inner) :
    ∃ before behind, outer.body =
        before ++ headerBytes inner.header.name inner.header.length ++ inner.body ++ behind ∧
      12 ≤ before.length := by
  obtain ⟨start, ⟨count, hfront, hcount, -, hearlier⟩, -, behind, rfl⟩ := h
  -- The front, the count and the attributes before stand one behind the other.
  obtain ⟨front, hbody⟩ := (delimited_readFront _).suffix hfront
  obtain ⟨earlier, rfl⟩ := ((delimited_readWith pool _).times _).suffix hearlier
  obtain ⟨-, rfl⟩ := reads_u2.mp hcount
  have hlen := length_add_ten_le_of_reads_readFront pool hfront
  refine ⟨front ++ Bytes.ofU2 count ++ earlier, behind, ?_, ?_⟩
  · rw [← hbody, Frame.toBytes]
    simp only [List.append_assoc]
  · rw [← hbody] at hlen
    simp only [List.length_append, Bytes.length_ofU2] at hlen ⊢
    omega

/-- A body that is opened while another is read declares eighteen bytes less, or even more. -/
theorem Nests.length_add_le {outer inner : Frame pool} (h : Nests outer inner) :
    inner.header.length.toNat + 18 ≤ outer.header.length.toNat := by
  obtain ⟨before, behind, hbody, hle⟩ := h.exists_eq_append
  rw [← inner.length_body, ← outer.length_body, hbody]
  simp only [List.length_append, length_headerBytes, headerLength]
  omega

/-- Of bodies that are open at once, the first has room for the others. -/
theorem length_le_of_isChain {outer : Frame pool} {inner : List (Frame pool)}
    (h : (outer :: inner).IsChain Nests) :
    (outer :: inner).length ≤ 1 + outer.header.length.toNat / 18 := by
  -- By induction along the bodies, each of which has eighteen bytes less for those inside.
  induction inner generalizing outer with
  | nil =>
    rw [List.length_singleton]
    omega
  | cons next inner ih =>
    obtain ⟨hnests, hchain⟩ := List.isChain_cons_cons.mp h
    have hle := ih hchain
    have hroom := hnests.length_add_le
    rw [List.length_cons]
    omega

/-- The length that is declared first tells how many bodies can be open at once. -/
theorem opensAtMost_of_length {budget : Nat}
    (h : ∀ frame : Frame pool, Opens input frame →
      1 + frame.header.length.toNat / 18 ≤ budget) : OpensAtMost pool budget input :=
  fun outer _ hopens hchain => Nat.le_trans (length_le_of_isChain hchain) (h outer hopens)

/-! ## Reading with a budget -/

/-- Reads a count and so many attributes, given a reader for one. -/
def readListOf (reader : Reader (Option Attribute)) : Reader (List Attribute) := do
  return (← Reader.table reader).filterMap id

/-- Reads an attribute, given the readers for bodies. -/
def readUsing (pool : ConstantPool) (parser? : Header → Option (Reader Attribute)) :
    Reader (Option Attribute) := do
  let header ← readHeader pool
  let body ← Reader.bytes header.length.toNat
  match parser? header with
  | none =>
    Reader.report (.skippedAttribute header.text header.length)
    return none
  | some parser =>
    let (found, unused) ← Reader.within body parser
    reportUnused header unused
    return some found

/-- The reader for the body of an attribute of a known kind, where no more method bodies than so
many may be open at once. A method body beyond them is left to another reader. -/
def parserWithin? (pool : ConstantPool) (beyond : Header → Reader Attribute) :
    Nat → Header → Option (Reader Attribute)
  | 0, header =>
    -- Attributes of other kinds have no attributes themselves, so any reader for these will do.
    if header.text = codeName then some (beyond header) else bodyReader? pool header (pure [])
  | budget + 1, header =>
    bodyReader? pool header (readListOf (readUsing pool (parserWithin? pool beyond budget)))

/-- Reads an attribute, where no more method bodies than so many may be open at once. A method body
beyond them is left to another reader. -/
def readWithin (pool : ConstantPool) (beyond : Header → Reader Attribute) (budget : Nat) :
    Reader (Option Attribute) :=
  readUsing pool (parserWithin? pool beyond budget)

/-- Without a budget, the readers for bodies are those that call the reader for attributes again. -/
theorem read_eq_readUsing (pool : ConstantPool) :
    read pool = readUsing pool fun header => bodyReader? pool header (readListOf (read pool)) :=
  read_eq pool

/-- Only method bodies have attributes. -/
theorem bodyReader?_congr {header : Header} (h : header.text ≠ codeName)
    (nested nested' : Reader (List Attribute)) :
    bodyReader? pool header nested = bodyReader? pool header nested' := by
  unfold bodyReader?
  rw [if_neg h, if_neg h]

theorem bodyReader?_of_eq_codeName {header : Header} (h : header.text = codeName)
    (nested : Reader (List Attribute)) :
    bodyReader? pool header nested = some (readCode header.name nested) := by
  unfold bodyReader?
  rw [h, if_neg (by decide), if_neg (by decide), if_pos rfl]

section ReadUsing

variable {parser? parser?' : Header → Option (Reader Attribute)}

/-- The readers for bodies only matter for a body that is read off the input. -/
theorem readUsing_congr
    (h : ∀ frame : Frame pool, frame.toBytes <+: input →
      (parser? frame.header).map (within frame.body) =
        (parser?' frame.header).map (within frame.body)) :
    readUsing pool parser? input = readUsing pool parser?' input := by
  refine bind_congr_of_reads fun _ header _ hheader =>
    bind_congr_of_reads fun _ body rest hbody => ?_
  obtain ⟨-, hstring, htext, rfl⟩ := reads_readHeader.mp hheader
  obtain ⟨-, hlen, rfl⟩ := reads_bytes.mp hbody
  -- What was read off so far is a frame.
  have hframe := h ⟨header, body, hstring, htext, hlen⟩ ⟨rest, List.append_assoc ..⟩
  simp only at hframe
  cases hparser : parser? header with
  | none =>
    rw [hparser, Option.map_none, eq_comm, Option.map_eq_none_iff] at hframe
    rw [hframe]
  | some parser =>
    rw [hparser, Option.map_some, eq_comm, Option.map_eq_some_iff] at hframe
    obtain ⟨parser', hparser', hwithin⟩ := hframe
    simp only [hparser', hwithin]

/-- If the reader for a body refuses it, the attribute is refused. -/
theorem fails_readUsing {frame : Frame pool} {parser : Reader Attribute}
    {reports : List Diagnostic} {cause : Error} (hframe : frame.toBytes <+: input)
    (hparser : parser? frame.header = some parser) (h : parser.Fails frame.body reports cause) :
    (readUsing pool parser?).Fails input reports cause := by
  obtain ⟨rest, rfl⟩ := hframe
  refine fails_bind.mpr (.inr ⟨_, _, _, _, frame.reads_header rest, ?_, rfl⟩)
  refine fails_bind.mpr (.inr ⟨_, _, _, _, frame.reads_body rest, ?_, rfl⟩)
  rw [hparser]
  exact fails_bind.mpr (.inl (fails_within.mpr h))

end ReadUsing

section Bodies

variable {frame : Frame pool} {reader : Reader (Option Attribute)}

/-- The reader for attributes only matters where a method body reads one. -/
theorem readCode_congr (h : ∀ start, ReadsFrom frame start → reader start = read pool start) :
    readCode frame.header.name (readListOf reader) frame.body =
      readCode frame.header.name (readListOf (read pool)) frame.body := by
  rw [readCode_eq, readCode_eq]
  -- Up to the first attribute both do the same.
  refine bind_congr_of_reads fun before front between hfront => ?_
  have htable : Reader.table reader between = Reader.table (read pool) between := by
    refine bind_congr_of_reads fun _ count first hcount => ?_
    obtain ⟨rfl, -⟩ := reads_u2.mp hcount
    refine times_congr_of_reads fun earlier hlt after found start hearlier => ?_
    exact h start (.behind count hfront hcount hlt hearlier)
  simp only [readListOf, bind_apply, htable]

/-- A method body is refused for a cause if some attribute of it is, and the reader for attributes
does nothing new but to refuse some for this cause. -/
theorem exists_fails_readCode {cause : Error}
    (h : ∀ place, reader place = read pool place ∨ ∃ reports, reader.Fails place reports cause)
    (hstart : ReadsFrom frame start) (hfails : ∃ reports, reader.Fails start reports cause) :
    ∃ reports, (readCode frame.header.name (readListOf reader)).Fails frame.body reports cause := by
  obtain ⟨count, hfront, hcount, hlt, hearlier⟩ := hstart
  obtain ⟨reports, htimes⟩ := exists_fails_times h hlt hearlier hfails
  have htable : (Reader.table reader).Fails _ _ cause :=
    fails_bind.mpr (.inr ⟨_, _, _, _, hcount, htimes, rfl⟩)
  have hlist : (readListOf reader).Fails _ _ cause := fails_bind.mpr (.inl htable)
  rw [readCode_eq]
  exact ⟨_, fails_bind.mpr (.inr ⟨_, _, _, _, hfront, fails_bind.mpr (.inl hlist), rfl⟩)⟩

end Bodies

/-! ## Which budgets are enough -/

section Budgets

variable {budget : Nat}

/-- If no more bodies are ever open at once than there is a budget for, an attribute is read as
without a budget. -/
theorem readWithin_eq (beyond : Header → Reader Attribute) (h : OpensAtMost pool budget input) :
    readWithin pool beyond budget input = read pool input := by
  -- By induction on the budget, of which an open body leaves one less to its attributes.
  induction budget generalizing input with
  | zero =>
    rw [read_eq_readUsing]
    refine readUsing_congr fun frame hframe => ?_
    have hne : frame.header.text ≠ codeName :=
      fun htext => opensAtMost_zero_iff.mp h frame ⟨htext, hframe⟩
    rw [parserWithin?, if_neg hne, bodyReader?_congr hne]
  | succ budget ih =>
    rw [read_eq_readUsing]
    refine readUsing_congr fun frame hframe => ?_
    rw [parserWithin?]
    by_cases htext : frame.header.text = codeName
    · have hcode := readCode_congr fun start hstart =>
        ih (opensAtMost_succ_iff.mp h frame ⟨htext, hframe⟩ start hstart)
      rw [bodyReader?_of_eq_codeName htext, bodyReader?_of_eq_codeName htext, Option.map_some,
        Option.map_some, Option.some.injEq]
      exact within_congr hcode
    · rw [bodyReader?_congr htext]

/-- If more bodies are open at once than there is a budget for, the first that is beyond it decides:
if it is refused, the attribute is. -/
theorem exists_fails_readWithin (cause : Error) (h : ¬ OpensAtMost pool budget input) :
    ∃ reports, (readWithin pool (fun _ => fail cause) budget).Fails input reports cause := by
  -- By induction on the budget. In an open body, the attribute with a body beyond the budget is
  -- refused, unless one before it is refused for the same reason.
  induction budget generalizing input with
  | zero =>
    simp only [opensAtMost_zero_iff, not_forall, not_not] at h
    obtain ⟨frame, htext, hframe⟩ := h
    exact ⟨[], fails_readUsing hframe (if_pos htext) (fails_fail.mpr ⟨rfl, rfl⟩)⟩
  | succ budget ih =>
    simp only [opensAtMost_succ_iff, not_forall] at h
    obtain ⟨frame, ⟨htext, hframe⟩, start, hstart, hmore⟩ := h
    have hplace (place : Bytes) :
        readWithin pool (fun _ => fail cause) budget place = read pool place ∨
          ∃ reports, (readWithin pool (fun _ => fail cause) budget).Fails place reports cause := by
      by_cases hmost : OpensAtMost pool budget place
      · exact .inl (readWithin_eq _ hmost)
      · exact .inr (ih hmost)
    obtain ⟨reports, hfails⟩ := exists_fails_readCode hplace hstart (ih hmore)
    exact ⟨reports, fails_readUsing hframe (bodyReader?_of_eq_codeName htext _) hfails⟩

/-- Whatever becomes of method bodies beyond the budget, an attribute is read as without a budget
exactly if no more bodies are ever open at once. -/
theorem opensAtMost_iff :
    OpensAtMost pool budget input ↔
      ∀ beyond, readWithin pool beyond budget input = read pool input := by
  constructor
  · intro h beyond
    exact readWithin_eq beyond h
  · intro h
    -- The attribute cannot be refused for two causes.
    by_contra hmore
    obtain ⟨_, hfirst⟩ := exists_fails_readWithin (.endOfInput .fixed) hmore
    obtain ⟨_, hsecond⟩ := exists_fails_readWithin (.codeTooLong 0) hmore
    rw [Fails, h] at hfirst hsecond
    obtain ⟨-, hcause⟩ := Fails.unique hfirst hsecond
    cases hcause

end Budgets

/-- A reader that calls itself for the attributes of a method body is the reader of attributes. -/
theorem eq_read_of_eq_readUsing {reader : Reader (Option Attribute)}
    (h : reader = readUsing pool fun header => bodyReader? pool header (readListOf reader)) :
    reader = read pool := by
  -- It does what it does with any budget, if it is what reads the bodies beyond the budget.
  have hwithin (budget : Nat) :
      readWithin pool (fun header => readCode header.name (readListOf reader)) budget =
        reader := by
    conv_rhs => rw [h]
    rw [readWithin]
    congr 1
    funext header
    induction budget generalizing header with
    | zero =>
      rw [parserWithin?]
      split_ifs with htext
      · exact (bodyReader?_of_eq_codeName htext _).symm
      · exact bodyReader?_congr htext _ _
    | succ budget ih =>
      rw [parserWithin?, funext ih, ← h]
  funext input
  have hmost : OpensAtMost pool (1 + input.length) input := by
    refine opensAtMost_of_length fun frame hopens => ?_
    have hle := hopens.2.length_le
    rw [frame.length_toBytes] at hle
    omega
  rw [← readWithin_eq _ hmost, hwithin]

/-- How deep method bodies nest. -/
structure NestsWithinLength (pool : ConstantPool) : Prop where
  /-- A body that is opened while another is read stands in its bytes, behind no less than twelve
  of them and a header of six. -/
  room : ∀ outer inner : Frame pool, Nests outer inner → ∃ before header behind,
    outer.body = before ++ header ++ inner.body ++ behind ∧ 12 ≤ before.length ∧ header.length = 6
  /-- Of bodies that are open at once, there are no more than the length that is declared first
  allows, whatever is declared and counted in them, and whether or not they can be read. -/
  length_le : ∀ (outer : Frame pool) (inner : List (Frame pool)),
    (outer :: inner).IsChain Nests →
      (outer :: inner).length ≤ 1 + outer.header.length.toNat / 18
  /-- So bodies are not opened inside each other forever. -/
  wellFounded : WellFounded fun inner outer : Frame pool => Nests outer inner
  /-- Whatever becomes of bodies beyond a budget, the budget makes no difference exactly if no more
  bodies than it allows are ever open at once. -/
  opensAtMost_iff : ∀ budget input, OpensAtMost pool budget input ↔
    ∀ beyond, readWithin pool beyond budget input = read pool input
  /-- A budget that the declared length allows makes no difference to what is read, reported or
  refused. -/
  readWithin_eq : ∀ beyond budget input,
    (∀ frame : Frame pool, Opens input frame → 1 + frame.header.length.toNat / 18 ≤ budget) →
      readWithin pool beyond budget input = read pool input
  /-- Reading calls itself for the attributes of a method body, and by this alone it is settled what
  is made of every input. -/
  eq_read_iff : ∀ reader : Reader (Option Attribute),
    reader = read pool ↔
      reader = readUsing pool fun header => bodyReader? pool header (readListOf reader)

/-- With any pool, method bodies nest no deeper than the length of the outermost allows. -/
theorem nestsWithinLength (pool : ConstantPool) : NestsWithinLength pool where
  room := by
    intro outer inner h
    obtain ⟨before, behind, hbody, hle⟩ := h.exists_eq_append
    exact ⟨before, _, behind, hbody, hle, length_headerBytes _ _⟩
  length_le := fun _ _ hchain => length_le_of_isChain hchain
  wellFounded := by
    refine Subrelation.wf (fun {inner outer} hnests => ?_)
      (measure fun frame : Frame pool => frame.header.length.toNat).wf
    have hroom := Nests.length_add_le hnests
    show inner.header.length.toNat < outer.header.length.toNat
    omega
  opensAtMost_iff := fun _ _ => opensAtMost_iff
  readWithin_eq := fun beyond _ _ h => readWithin_eq beyond (opensAtMost_of_length h)
  eq_read_iff := by
    intro reader
    constructor
    · rintro rfl
      exact read_eq_readUsing pool
    · exact eq_read_of_eq_readUsing

end JavaClass.Attribute
