import JavaClass.Proofs.ConstantPool.Counted

/-!
# Constants are told by their bytes

Constants that can be read are equal exactly if they are written with the same bytes. What is fed to
a hash for a constant tells as much, so a pool that looks a constant up by its hash merges no two
constants that have different bytes, and it gives one index to constants that have the same bytes.

- `Constant.IsRead`: the constants that some input holds.
- `Constant.write_eq_iff`: such constants are told by their bytes.
- `Constant.hashed_eq_iff`: all constants are told by what is fed to a hash.
- `ConstantPool.Reachable.intern_index_eq_iff`: all constants are told by the indices that interning
  yields, whatever happens to the pool in between.
- `Constant.isTrueToBytes`: round trips, equality, hashing and interning all go by the bytes.
-/

namespace JavaClass

/-! ## Bytes and hashes -/

namespace Constant

variable {constant first second : Constant} {bytes : Bytes}

/-- A constant that can be read from some input. -/
def IsRead (constant : Constant) : Prop :=
  ∃ input reports rest, Constant.read.run input = ⟨reports, .ok (constant, rest)⟩

/-- A constant can be read if it can be written and is not a string of units that is text. -/
theorem isRead_iff :
    constant.IsRead ↔ constant.Canonical ∧ ∃ bytes, constant.write = .ok bytes := by
  constructor
  · rintro ⟨input, reports, rest, h⟩
    obtain ⟨-, hcanonical, bytes, hbytes, -⟩ := (inverts_read _ _ _ _).mp h
    exact ⟨hcanonical, bytes, hbytes⟩
  · rintro ⟨hcanonical, bytes, hbytes⟩
    exact ⟨bytes ++ [], [], [], (inverts_read _ _ _ _).mpr ⟨rfl, hcanonical, bytes, hbytes, rfl⟩⟩

/-- Where a constant was written it is read again, as text if it is a string that is text, and what
follows is left. -/
theorem reads_read_of_write (h : constant.write = .ok bytes) (rest : Bytes) :
    Constant.read.Reads (bytes ++ rest) [] constant.normalized rest := by
  have hwrite : constant.normalized.write = .ok bytes := (write_normalized constant).trans h
  exact (inverts_read _ _ _ _).mpr ⟨rfl, canonical_normalized constant, bytes, hwrite, rfl⟩

/-- A constant that is no string of units of a text is read as itself. -/
theorem normalized_of_forall_ne (h : ∀ text, constant ≠ .utf16 (Utf16.ofText text)) :
    constant.normalized = constant := by
  apply normalized_of_canonical
  cases constant with
  | utf16 units =>
    rw [Canonical, Option.eq_none_iff_forall_ne_some]
    intro text htext
    exact h text (by rw [Utf16.toText?_eq_some_iff.mp htext])
  | _ => trivial

/-- The units of a text are read as the text. -/
theorem normalized_ofText (text : String) :
    (Constant.utf16 (Utf16.ofText text)).normalized = .utf8 text :=
  ofUnits_eq_iff.mpr (.inl ⟨text, rfl, rfl⟩)

/-- Constants that can be read are equal if they are written with the same bytes. -/
theorem write_eq_iff (h : first.IsRead) (h' : second.IsRead) :
    first.write = second.write ↔ first = second := by
  obtain ⟨hcanonical, bytes, hbytes⟩ := isRead_iff.mp h
  obtain ⟨hcanonical', -⟩ := isRead_iff.mp h'
  constructor
  · intro heq
    -- Both are read from the same bytes.
    have hreads := reads_read_of_write hbytes []
    have hreads' := reads_read_of_write (heq.symm.trans hbytes) []
    rw [normalized_of_canonical hcanonical] at hreads
    rw [normalized_of_canonical hcanonical'] at hreads'
    exact (hreads.unique hreads').2.1
  · intro heq
    rw [heq]

/-- The constant that some parts behind a tag are those of, if there is one. -/
def ofHashed? : List Part → Option Constant
  | [.byte 1, .text text] => some (.utf8 text)
  | [.byte 1, .units units] => some (.utf16 units)
  | [.byte 3, .word4 word] => some (.integer ⟨word⟩)
  | [.byte 4, .word4 word] => some (.float word)
  | [.byte 5, .word8 word] => some (.long ⟨word⟩)
  | [.byte 6, .word8 word] => some (.double word)
  | [.byte 7, .word2 index] => some (.classRef index)
  | [.byte 8, .word2 index] => some (.string index)
  | [.byte 9, .word2 first, .word2 second] => some (.fieldRef first second)
  | [.byte 10, .word2 first, .word2 second] => some (.methodRef first second)
  | [.byte 11, .word2 first, .word2 second] => some (.interfaceMethodRef first second)
  | [.byte 12, .word2 first, .word2 second] => some (.nameAndType first second)
  | [.byte 15, .kind kind, .word2 member] => some (.methodHandle kind member)
  | [.byte 16, .word2 index] => some (.methodType index)
  | [.byte 18, .word2 first, .word2 second] => some (.invokeDynamic first second)
  | _ => none

theorem ofHashed?_hashed (constant : Constant) : ofHashed? constant.hashed = some constant := by
  cases constant <;> rfl

/-- Constants are equal exactly if the same is fed to a hash for them. -/
theorem hashed_eq_iff : first.hashed = second.hashed ↔ first = second := by
  constructor
  · intro h
    have hsome := ofHashed?_hashed first
    rw [h, ofHashed?_hashed] at hsome
    exact (Option.some.inj hsome).symm
  · intro h
    rw [h]

end Constant

/-! ## Interning -/

namespace ConstantPool

variable {pool later last : ConstantPool} {constant first second : Constant}
  {index other : ConstantIndex}

namespace Reachable

/-- A constant that was interned stands at the index that was yielded. -/
theorem get_of_intern_eq (h : pool.Reachable)
    (hintern : pool.intern constant = (.ok index, later)) :
    later.get index = .ok constant := by
  have hget := h.get_of_intern (congrArg Prod.fst hintern)
  rwa [hintern] at hget

/-- A pool knows the first index of a constant that was interned. -/
theorem firstIndex_of_intern (hintern : pool.intern constant = (.ok index, later)) :
    later.firstIndex[constant]? = some index := by
  cases hfirst : pool.firstIndex[constant]? with
  | some known =>
    rw [intern_of_known hfirst] at hintern
    cases hintern
    exact hfirst
  | none =>
    rw [intern_of_unknown hfirst] at hintern
    by_cases room : pool.HasRoom constant
    · rw [push_of_hasRoom room] at hintern
      cases hintern
      rw [firstIndex_add, hfirst, if_pos rfl, Option.none_or]
    · rw [push_of_not_hasRoom room] at hintern
      cases hintern

/-- A call does not change first indices that are known. -/
theorem firstIndex_perform (h : pool.Reachable) (call : Call)
    (hfirst : pool.firstIndex[constant]? = some index) :
    (pool.perform call).2.firstIndex[constant]? = some index := by
  obtain ⟨added, -, heq, -⟩ | ⟨_, _, heq, -⟩ | ⟨_, heq⟩ := h.perform_cases call
  · rw [heq]
    show (pool.add added).firstIndex[constant]? = some index
    rw [firstIndex_add, hfirst, Option.some_or]
  · rw [heq]
    exact hfirst
  · rw [heq]
    exact hfirst

/-- No number of calls changes first indices that are known. -/
theorem firstIndex_performAll (h : pool.Reachable) (calls : List Call)
    (hfirst : pool.firstIndex[constant]? = some index) :
    (pool.performAll calls).2.firstIndex[constant]? = some index := by
  induction calls generalizing pool with
  | nil => exact hfirst
  | cons call calls ih => exact ih (h.perform call) (h.firstIndex_perform call hfirst)

/-- Interning two constants yields one index exactly if they are equal, whatever is called between
the two. -/
theorem intern_index_eq_iff (h : pool.Reachable) (calls : List Call)
    (hfirst : pool.intern first = (.ok index, later))
    (hsecond : (later.performAll calls).2.intern second = (.ok other, last)) :
    index = other ↔ first = second := by
  have hlater : later.Reachable := by
    have hleft := h.intern first
    rwa [hfirst] at hleft
  have hafter : (later.performAll calls).2.Reachable := hlater.performAll calls
  constructor
  · rintro rfl
    -- Both stand at the index in the last pool, the first one since it was interned.
    have hthere : later.get index = .ok first := get_of_intern_eq h hfirst
    have hkept : last.get index = .ok first := by
      have hextends := Extends.intern hafter second
      rw [hsecond] at hextends
      exact hextends (Extends.performAll hlater calls hthere)
    exact Except.ok.inj (hkept.symm.trans (get_of_intern_eq hafter hsecond))
  · rintro rfl
    -- The pool still knows the index.
    have hknown := hlater.firstIndex_performAll calls (firstIndex_of_intern hfirst)
    rw [intern_of_known hknown] at hsecond
    exact Except.ok.inj (Prod.mk.inj hsecond).1

end Reachable

end ConstantPool

/-! ## Constants by their bytes -/

namespace Constant

/-- What two constants and an input have to do with bytes. -/
structure IsTrueToBytes (first second : Constant) (input : Bytes) : Prop where
  /-- A constant is read where it was written, and what follows is left, unless it is a string of
  units that is text. -/
  read_write : (∀ text, first ≠ .utf16 (Utf16.ofText text)) → ∀ bytes rest,
    first.write = .ok bytes → Constant.read.run (bytes ++ rest) = ⟨[], .ok (first, rest)⟩
  /-- Where such a string was written, the text is read. -/
  read_write_text : ∀ text, first = .utf16 (Utf16.ofText text) → ∀ bytes rest,
    first.write = .ok bytes → Constant.read.run (bytes ++ rest) = ⟨[], .ok (.utf8 text, rest)⟩
  /-- What is read is written with the bytes that were taken off the input. -/
  write_read : ∀ reports rest, Constant.read.run input = ⟨reports, .ok (first, rest)⟩ →
    ∃ bytes, first.write = .ok bytes ∧ input = bytes ++ rest
  /-- Constants that can be read are equal if they are written with the same bytes. -/
  beq_iff : first.IsRead → second.IsRead →
    ((first == second) = true ↔ first.write = second.write)
  /-- They are equal if the same is fed to a hash for them. -/
  beq_iff_hashed : (first == second) = true ↔ first.hashed = second.hashed
  /-- They are interned at the same index if they are written with the same bytes, whatever is
  called between the one and the other. -/
  intern_iff : first.IsRead → second.IsRead → ∀ pool : ConstantPool, pool.IsReached →
    ∀ calls index other later last, pool.intern first = (.ok index, later) →
      (later.performAll calls).2.intern second = (.ok other, last) →
      (index = other ↔ first.write = second.write)

/-- Constants are written and read without loss, and they are told by their bytes: for equality, for
hashing and for interning. -/
theorem isTrueToBytes (first second : Constant) (input : Bytes) :
    IsTrueToBytes first second input where
  read_write := by
    intro hne bytes rest hbytes
    have hreads := reads_read_of_write hbytes rest
    rwa [normalized_of_forall_ne hne] at hreads
  read_write_text := by
    rintro text rfl bytes rest hbytes
    have hreads := reads_read_of_write hbytes rest
    rwa [normalized_ofText] at hreads
  write_read := by
    intro reports rest h
    exact ((inverts_read _ _ _ _).mp h).2.2
  beq_iff := by
    intro hfirst hsecond
    rw [beq_iff_eq, write_eq_iff hfirst hsecond]
  beq_iff_hashed := by
    rw [beq_iff_eq, hashed_eq_iff]
  intern_iff := by
    intro hfirst hsecond pool hpool calls index other later last hintern hlater
    rw [write_eq_iff hfirst hsecond]
    exact hpool.reachable.intern_index_eq_iff calls hintern hlater

/-- The two zeros are different constants, and so are two NaNs with different payloads, as they have
different bytes. -/
theorem isTrueToBytes_zeros_and_nans :
    ((Constant.double 0 == .double 0x8000000000000000) = false ∧
      (Constant.double 0).write ≠ (Constant.double 0x8000000000000000).write) ∧
    (Constant.float 0x7FC00000 == .float 0x7FC00001) = false ∧
      Constant.read.run [4, 0x7F, 0xC0, 0, 1, 0xFF] = ⟨[], .ok (.float 0x7FC00001, [0xFF])⟩ := by
  have hzero : (Constant.double 0).IsRead := isRead_iff.mpr ⟨trivial, _, rfl⟩
  have hminus : (Constant.double 0x8000000000000000).IsRead := isRead_iff.mpr ⟨trivial, _, rfl⟩
  have hne : (Constant.double 0 == .double 0x8000000000000000) = false := by decide
  refine ⟨⟨hne, fun heq => ?_⟩, by decide, ?_⟩
  · have hsame := ((isTrueToBytes _ _ []).beq_iff hzero hminus).mpr heq
    rw [hne] at hsame
    cases hsame
  · exact (isTrueToBytes (.float 0x7FC00001) (.float 0) []).read_write (by simp)
      [4, 0x7F, 0xC0, 0, 1] [0xFF] rfl

end Constant

end JavaClass
