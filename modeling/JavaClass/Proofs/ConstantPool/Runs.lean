import JavaClass.Proofs.ConstantPool.Format

/-!
# Runs of constant pools

A pool starts out without constants or is read from bytes, and from then on constants are pushed and
interned, some of which are refused. Whatever the calls are, the pool is told by the constants that
were inserted, in order: where each of them is, what is found at an index, what interning answers,
and what every later call will answer.

- `ConstantPool.Call`, `ConstantPool.performAll`: calls that insert constants, and runs of them.
- `ConstantPool.IsOrigin`: the pools to start from.
- `ConstantPool.inserted`: the constants that calls insert, told from the answers.
- `ConstantPool.IsIndexed`, `ConstantPool.AnswersByConstants`: how constants are numbered, and what
  a pool answers.
- `ConstantPool.Lawful`: a pool is nothing but its constants.
- `ConstantPool.lawful_performAll`: every run leaves such a pool, with the constants that were
  inserted.
-/

namespace JavaClass.ConstantPool

variable {pool other : ConstantPool} {constant : Constant} {index : ConstantIndex}

/-! ## Calls -/

/-- A call that inserts a constant, unless it is refused. -/
inductive Call where
  /-- The constant is added, even if an equal one is there. -/
  | push (constant : Constant)
  /-- The constant is added if it is not there. -/
  | intern (constant : Constant)
deriving DecidableEq

/-- The answer to a call, and the pool that the call leaves. -/
def perform (pool : ConstantPool) : Call → Except Error ConstantIndex × ConstantPool
  | .push constant => pool.push constant
  | .intern constant => pool.intern constant

/-- The answers to some calls, and the pool that they leave. -/
def performAll (pool : ConstantPool) : List Call → List (Except Error ConstantIndex) × ConstantPool
  | [] => ([], pool)
  | call :: calls =>
    let (answer, next) := pool.perform call
    let (answers, last) := next.performAll calls
    (answer :: answers, last)

/-- The constants that are there after some calls, in the order of insertion. A push that succeeds
inserts its constant, and so does interning one that was not there. -/
def inserted (there : List Constant) :
    List (Call × Except Error ConstantIndex) → List Constant
  | [] => there
  | (_, .error _) :: steps => inserted there steps
  | (.push constant, .ok _) :: steps => inserted (there ++ [constant]) steps
  | (.intern constant, .ok _) :: steps =>
    inserted (if constant ∈ there then there else there ++ [constant]) steps

/-- A pool to start from: the one without constants, or one that is read from bytes. -/
inductive IsOrigin : ConstantPool → Prop where
  /-- The pool without constants. -/
  | empty : IsOrigin empty
  /-- A pool that was read. -/
  | read {pool : ConstantPool} {input rest : Bytes} {reports : List Diagnostic}
    (h : ConstantPool.read.run input = ⟨reports, .ok (pool, rest)⟩) : IsOrigin pool

/-- A pool to start from was filled. -/
theorem IsOrigin.reachable (h : pool.IsOrigin) : pool.Reachable := by
  cases h with
  | empty => exact .empty
  | read h => exact ((inverts_read _ _ _ _).mp h).2.1.reachable

namespace Reachable

/-- Every call leaves a pool that was filled. -/
theorem perform (h : pool.Reachable) (call : Call) : (pool.perform call).2.Reachable := by
  cases call with
  | push constant => exact h.push constant
  | intern constant => exact h.intern constant

/-- Every number of calls leaves a pool that was filled. -/
theorem performAll (h : pool.Reachable) (calls : List Call) :
    (pool.performAll calls).2.Reachable := by
  induction calls generalizing pool with
  | nil => exact h
  | cons call calls ih => exact ih (h.perform call)

/-- A call adds its constant, or leaves the pool as it is. If it fails, it leaves the pool. -/
theorem perform_cases (h : pool.Reachable) (call : Call) :
    (∃ constant, pool.HasRoom constant ∧
        pool.perform call = (.ok (UInt16.ofNat pool.next), pool.add constant) ∧
        (call = .push constant ∨
          call = .intern constant ∧ constant ∉ pool.constants.elements)) ∨
      (∃ constant index, pool.perform call = (.ok index, pool) ∧ call = .intern constant ∧
        constant ∈ pool.constants.elements) ∨
      ∃ cause, pool.perform call = (.error cause, pool) := by
  cases call with
  | push constant =>
    by_cases room : pool.HasRoom constant
    · exact .inl ⟨constant, room, push_of_hasRoom room, .inl rfl⟩
    · exact .inr (.inr ⟨_, push_of_not_hasRoom room⟩)
  | intern constant =>
    obtain ⟨index, hget, heq⟩ | ⟨hnew, room, heq⟩ | ⟨-, -, heq⟩ := h.intern_cases constant
    · exact .inr (.inl ⟨constant, index, heq, rfl, h.mem_of_get hget⟩)
    · exact .inl ⟨constant, room, heq, .inr ⟨rfl, hnew⟩⟩
    · exact .inr (.inr ⟨_, heq⟩)

end Reachable

/-! ## What calls insert -/

/-- What calls insert is inserted by the first of them and then by the others. -/
theorem inserted_cons (there : List Constant) (step : Call × Except Error ConstantIndex)
    (steps : List (Call × Except Error ConstantIndex)) :
    inserted there (step :: steps) = inserted (inserted there [step]) steps := by
  obtain ⟨call, answer⟩ := step
  cases answer with
  | error cause => rfl
  | ok index => cases call <;> rfl

/-- A call inserts what its answer tells. -/
theorem elements_perform (h : pool.Reachable) (call : Call) :
    (pool.perform call).2.constants.elements =
      inserted pool.constants.elements [(call, (pool.perform call).1)] := by
  obtain ⟨constant, -, heq, rfl | ⟨rfl, hnew⟩⟩ | ⟨constant, index, heq, rfl, hmem⟩ | ⟨cause, heq⟩ :=
    h.perform_cases call
  · rw [heq, elements_add]
    rfl
  · rw [heq, elements_add]
    simp only [inserted, if_neg hnew]
  · rw [heq]
    simp only [inserted, if_pos hmem]
  · rw [heq]
    rfl

/-- Calls insert what their answers tell, in order. -/
theorem elements_performAll (h : pool.Reachable) (calls : List Call) :
    (pool.performAll calls).2.constants.elements =
      inserted pool.constants.elements (calls.zip (pool.performAll calls).1) := by
  induction calls generalizing pool with
  | nil => rfl
  | cons call calls ih =>
    -- The first answer is that of the first call, and the others are those of a run from there.
    change ((pool.perform call).2.performAll calls).2.constants.elements = inserted _
      ((call, (pool.perform call).1) :: calls.zip ((pool.perform call).2.performAll calls).1)
    rw [inserted_cons, ← elements_perform h call]
    exact ih (h.perform call)

/-! ## Indices -/

/-- The constants of a pool without their indices are the elements of its array. -/
theorem map_snd_toList (pool : ConstantPool) :
    pool.toList.map (·.2) = pool.constants.elements := by
  rw [toList, OffsetArray.elements, List.map_map]
  rfl

/-- The constants of a pool have the indices that the widths of those before them make up. -/
structure IsIndexed (pool : ConstantPool) : Prop where
  /-- The index of a constant is 1 and the widths of all constants before it. -/
  toNat_index : ∀ number entry, pool.toList[number]? = some entry →
    entry.1.toNat = 1 + ((pool.toList.take number).map fun before => width before.2).sum
  /-- Indices ascend. -/
  ascending : pool.toList.Pairwise fun first second => first.1 < second.1
  /-- No index is greater than 65534. -/
  index_le : ∀ entry ∈ pool.toList, entry.1.toNat ≤ 65534
  /-- The next offset is 1 and the widths of all constants. -/
  next_eq : pool.next = 1 + (pool.toList.map fun entry => width entry.2).sum

namespace Reachable

/-- A constant with its index is one with its offset. -/
theorem mem_toList_iff (h : pool.Reachable) :
    (index, constant) ∈ pool.toList ↔ (index.toNat, constant) ∈ pool.constants.toList := by
  rw [toList, List.mem_map]
  constructor
  · rintro ⟨⟨offset, found⟩, hmem, heq⟩
    obtain ⟨rfl, rfl⟩ := Prod.mk.inj heq
    rwa [h.toNat_ofNat hmem]
  · intro hmem
    exact ⟨_, hmem, Prod.ext UInt16.ofNat_toNat rfl⟩

/-- The widths of constants do not depend on whether they stand behind offsets or indices. -/
theorem sum_width_take (pool : ConstantPool) (number : Nat) :
    ((pool.toList.take number).map fun before => width before.2).sum =
      ((pool.constants.toList.take number).map fun before => width before.2).sum := by
  rw [toList, ← List.map_take, List.map_map]
  rfl

/-- The constants of a pool that was filled have the indices that their widths make up. -/
theorem isIndexed (h : pool.Reachable) : pool.IsIndexed where
  toNat_index := by
    intro number entry hentry
    rw [toList, List.getElem?_map, Option.map_eq_some_iff] at hentry
    obtain ⟨⟨offset, constant⟩, hentry, rfl⟩ := hentry
    rw [h.toNat_ofNat (List.mem_of_getElem? hentry), sum_width_take]
    exact h.filled.offset_eq hentry
  ascending := by
    rw [toList, List.pairwise_map]
    -- Offsets ascend, and none is cut off when it is made an index.
    refine h.ascending.imp_of_mem fun hfirst hsecond hlt => ?_
    rw [UInt16.lt_iff_toNat_lt, h.toNat_ofNat hfirst, h.toNat_ofNat hsecond]
    exact hlt
  index_le := by
    rintro ⟨index, constant⟩ hmem
    have hbounds := h.filled.bounds (h.mem_toList_iff.mp hmem)
    have hnext := h.next_le
    have hwidth := constant.width_pos
    unfold limit next at hnext
    change index.toNat ≤ 65534
    omega
  next_eq := by
    rw [next, h.filled.next_eq, ← map_snd_toList, List.map_map]
    rfl

end Reachable

/-! ## Answers -/

/-- Everything that a pool answers is told by its constants and their indices. -/
structure AnswersByConstants (pool : ConstantPool) : Prop where
  /-- A constant is found exactly at its index. -/
  get_eq_ok_iff : ∀ index constant, pool.get index = .ok constant ↔ (index, constant) ∈ pool.toList
  /-- At every index at which nothing is found, this is the error. -/
  get_eq_error : ∀ index, (∀ constant, (index, constant) ∉ pool.toList) →
    pool.get index = .error (.noConstantAt index)
  /-- Nothing is found at 0, past the end, and at the second slot of a constant of two slots. -/
  get_eq_error_iff : ∀ index, pool.get index = .error (.noConstantAt index) ↔
    index = 0 ∨ pool.next ≤ index.toNat ∨
      ∃ entry ∈ pool.toList, width entry.2 = 2 ∧ index.toNat = entry.1.toNat + 1
  /-- Interning a constant that is there yields its smallest index, and changes nothing. -/
  intern_of_found : ∀ constant, (∃ index, pool.get index = .ok constant) →
    ∃ index, pool.intern constant = (.ok index, pool) ∧ pool.get index = .ok constant ∧
      ∀ found, pool.get found = .ok constant → index ≤ found
  /-- Interning a constant that is not there is pushing it. -/
  intern_of_not_found : ∀ constant, (∀ index, pool.get index ≠ .ok constant) →
    pool.intern constant = pool.push constant
  /-- A push fails exactly if the constant would reach past the last index. -/
  push_eq_error_iff : ∀ constant, (∃ cause, (pool.push constant).1 = .error cause) ↔
    pool.next + width constant > 65535
  /-- A call that fails changes nothing. -/
  perform_of_error : ∀ call cause, (pool.perform call).1 = .error cause →
    (pool.perform call).2 = pool

namespace Reachable

/-- What a pool does not find, it reports by its index. -/
theorem get_eq_error_of_not_mem (h : pool.Reachable)
    (hnone : ∀ constant, (index, constant) ∉ pool.toList) :
    pool.get index = .error (.noConstantAt index) := by
  cases hget : pool.constants.get? index.toNat with
  | none => rw [get_eq, hget]
  | some constant =>
    rw [OffsetArray.get?_eq_some_iff h.ascending, ← h.mem_toList_iff] at hget
    exact absurd hget (hnone constant)

/-- Nothing is found at 0, past the end, and at the second slot of a constant of two slots, and
everywhere else something is. -/
theorem get_eq_error_iff (h : pool.Reachable) :
    pool.get index = .error (.noConstantAt index) ↔
      index = 0 ∨ pool.next ≤ index.toNat ∨
        ∃ entry ∈ pool.toList, width entry.2 = 2 ∧ index.toNat = entry.1.toNat + 1 := by
  constructor
  · intro hget
    by_contra hother
    obtain ⟨hzero, hend, hsecond⟩ : index ≠ 0 ∧ index.toNat < pool.next ∧
        ¬ ∃ entry ∈ pool.toList, width entry.2 = 2 ∧ index.toNat = entry.1.toNat + 1 := by
      simpa only [not_or, Nat.not_le] using hother
    have hpos : 1 ≤ index.toNat := by
      rw [Ne, ← UInt16.toNat_inj] at hzero
      exact Nat.pos_of_ne_zero hzero
    -- The index falls into some constant, of which it is the first slot or the second.
    obtain ⟨⟨offset, constant⟩, hmem, hlow, hhigh⟩ := h.filled.exists_entry_of_lt hpos hend
    have hwidth := constant.width_le
    have hoffset := h.toNat_ofNat hmem
    have hentry : (UInt16.ofNat offset, constant) ∈ pool.toList := by
      rwa [h.mem_toList_iff, hoffset]
    change offset ≤ index.toNat at hlow
    change index.toNat < offset + width constant at hhigh
    rcases Nat.eq_or_lt_of_le hlow with rfl | hlt
    · rw [h.get_eq_ok_iff.mpr hmem] at hget
      cases hget
    · exact hsecond ⟨_, hentry, by change width constant = 2; omega,
        by change index.toNat = (UInt16.ofNat offset).toNat + 1; omega⟩
  · intro hplace
    refine h.get_eq_error_of_not_mem fun constant hmem => ?_
    have hbounds := h.filled.bounds (h.mem_toList_iff.mp hmem)
    have hwidth := constant.width_pos
    rcases hplace with rfl | hend | ⟨entry, hentry, htwo, hindex⟩
    · exact absurd hbounds.1 (by decide)
    · unfold next at hend
      omega
    · rw [h.mem_toList_iff] at hmem hentry
      have hlow : entry.1.toNat < index.toNat := by omega
      have hhigh : index.toNat < entry.1.toNat + width entry.2 := by omega
      exact h.filled.not_mem_of_inside hentry hlow hhigh constant hmem

/-- Interning a constant that is there yields its smallest index. -/
theorem exists_intern_of_found (h : pool.Reachable)
    (hfound : ∃ index, pool.get index = .ok constant) :
    ∃ index, pool.intern constant = (.ok index, pool) ∧ pool.get index = .ok constant ∧
      ∀ found, pool.get found = .ok constant → index ≤ found := by
  obtain ⟨there, hthere⟩ := hfound
  have hknown : pool.firstIndex[constant]? ≠ none := by
    rw [Ne, h.firstIndex_eq_none_iff, not_not]
    exact h.mem_of_get hthere
  obtain ⟨index, hindex⟩ := Option.ne_none_iff_exists'.mp hknown
  refine ⟨index, intern_of_known hindex, h.get_of_firstIndex hindex, fun found hget => ?_⟩
  rw [h.firstIndex_eq, Option.map_eq_some_iff] at hindex
  obtain ⟨first, hfind, rfl⟩ := hindex
  obtain ⟨-, before, after, hentries, hbefore⟩ := List.find?_eq_some_iff_append.mp hfind
  have hmem := h.get_eq_ok_iff.mp hget
  rw [UInt16.le_iff_toNat_le, h.toNat_ofNat (List.mem_of_find?_eq_some hfind)]
  -- No constant before the one that is found is equal to it, and those after have greater indices.
  have hascending := h.ascending
  rw [OffsetArray.Ascending, hentries] at hascending
  rw [hentries, List.mem_append, List.mem_cons] at hmem
  rcases hmem with hmem | rfl | hmem
  · exact absurd (hbefore _ hmem) (by simp)
  · exact Nat.le_refl _
  · have hcons := (List.pairwise_append.mp hascending).2.1
    exact Nat.le_of_lt ((List.pairwise_cons.mp hcons).1 _ hmem)

/-- What a pool that was filled answers is told by its constants and their indices. -/
theorem answersByConstants (h : pool.Reachable) : pool.AnswersByConstants where
  get_eq_ok_iff index constant := by rw [h.get_eq_ok_iff, h.mem_toList_iff]
  get_eq_error _ hnone := h.get_eq_error_of_not_mem hnone
  get_eq_error_iff _ := h.get_eq_error_iff
  intern_of_found _ hfound := h.exists_intern_of_found hfound
  intern_of_not_found constant hnone := by
    obtain ⟨index, hget, -⟩ | ⟨hnew, -⟩ | ⟨hnew, -⟩ := h.intern_cases constant
    · exact absurd hget (hnone index)
    · exact intern_of_unknown (h.firstIndex_eq_none_iff.mpr hnew)
    · exact intern_of_unknown (h.firstIndex_eq_none_iff.mpr hnew)
  push_eq_error_iff constant := by
    rw [gt_iff_lt, ← Nat.not_le]
    change _ ↔ ¬ pool.HasRoom constant
    by_cases room : pool.HasRoom constant
    · simp [push_of_hasRoom room, room]
    · simp [push_of_not_hasRoom room, room]
  perform_of_error call cause herror := by
    obtain ⟨_, -, heq, -⟩ | ⟨_, _, heq, -⟩ | ⟨_, heq⟩ := h.perform_cases call
    · rw [heq] at herror
      cases herror
    · rw [heq]
    · rw [heq]

end Reachable

/-! ## Runs -/

/-- Every call leaves every constant where it is. -/
theorem Extends.perform (h : pool.Reachable) (call : Call) :
    Extends pool (pool.perform call).2 := by
  obtain ⟨constant, room, heq, -⟩ | ⟨_, _, heq, -⟩ | ⟨_, heq⟩ := h.perform_cases call
  · rw [heq]
    exact .add h room
  · rw [heq]
    exact .refl pool
  · rw [heq]
    exact .refl pool

/-- Every number of calls leaves every constant where it is. -/
theorem Extends.performAll (h : pool.Reachable) (calls : List Call) :
    Extends pool (pool.performAll calls).2 := by
  induction calls generalizing pool with
  | nil => exact .refl pool
  | cons call calls ih => exact (Extends.perform h call).trans (ih (h.perform call))

/-- Pools that were filled are the same if they compare equal, although the comparison leaves out
the first indices that they know. -/
theorem Reachable.eq_of_beq (h : pool.Reachable) (hother : other.Reachable)
    (heq : (pool == other) = true) : pool = other := by
  -- Only entries are compared, but nothing else tells pools apart that were filled.
  have hentries : pool.constants.entries = other.constants.entries := by
    have hsame : pool.constants.sameEntries other.constants = true := heq
    simpa [OffsetArray.sameEntries] using hsame
  refine h.eq_of_elements hother ?_
  rw [OffsetArray.elements, OffsetArray.elements, OffsetArray.toList, OffsetArray.toList, hentries]

/-- The constants of a pool that was read stand in the input, in order. -/
theorem exists_bytes_of_read {input rest : Bytes} {reports : List Diagnostic}
    (h : ConstantPool.read.run input = ⟨reports, .ok (pool, rest)⟩) :
    ∃ count bytes, input = Bytes.ofU2 count ++ bytes ++ rest ∧
      writeAll Constant.write (pool.toList.map (·.2)) = .ok bytes := by
  obtain ⟨-, -, written, hwritten, rfl⟩ := (inverts_read _ _ _ _).mp h
  simp only [ConstantPool.write, bind_eq_ok, pure_eq_ok] at hwritten
  obtain ⟨count, -, bytes, hbytes, rfl⟩ := hwritten
  exact ⟨count, bytes, rfl, by rwa [map_snd_toList]⟩

/-- A pool that is left by calls on a pool to start from. -/
def IsReached (pool : ConstantPool) : Prop :=
  ∃ start calls, IsOrigin start ∧ (start.performAll calls).2 = pool

theorem IsReached.reachable (h : pool.IsReached) : pool.Reachable := by
  obtain ⟨start, calls, hstart, rfl⟩ := h
  exact hstart.reachable.performAll calls

/-- A pool is nothing but its constants, in order. -/
structure Lawful (pool : ConstantPool) : Prop where
  /-- The constants have the indices that their widths make up. -/
  indexed : pool.IsIndexed
  /-- The constants and their indices tell every answer. -/
  answers : pool.AnswersByConstants
  /-- A constant that is found stays where it is, whatever is called later. -/
  lasting : ∀ calls index constant, pool.get index = .ok constant →
    (pool.performAll calls).2.get index = .ok constant
  /-- A pool that compares equal is the same, and answers all further calls in the same way. -/
  determined : ∀ other : ConstantPool, other.IsReached → (pool == other) = true →
    pool = other ∧ ∀ calls, pool.performAll calls = other.performAll calls

/-- A pool that was filled is nothing but its constants. -/
theorem Reachable.lawful (h : pool.Reachable) : pool.Lawful where
  indexed := h.isIndexed
  answers := h.answersByConstants
  lasting calls _ _ hget := Extends.performAll h calls hget
  determined other hother heq := by
    have hsame := h.eq_of_beq hother.reachable heq
    exact ⟨hsame, fun calls => by rw [← hsame]⟩

/-- Whatever calls are made on a new pool or on one that was read, and whether they succeed or not,
the pool that they leave is nothing but its constants, and these are the ones that were there and
those that were inserted, in order. In a pool that was read they have the order of the input. -/
theorem lawful_performAll {start : ConstantPool} (h : start.IsOrigin) (calls : List Call) :
    (start.performAll calls).2.Lawful ∧
      (start.performAll calls).2.toList.map (·.2) =
        inserted (start.toList.map (·.2)) (calls.zip (start.performAll calls).1) ∧
      ∀ input reports rest, ConstantPool.read.run input = ⟨reports, .ok (start, rest)⟩ →
        ∃ count bytes, input = Bytes.ofU2 count ++ bytes ++ rest ∧
          writeAll Constant.write (start.toList.map (·.2)) = .ok bytes := by
  refine ⟨(h.reachable.performAll calls).lawful, ?_, ?_⟩
  · rw [map_snd_toList, map_snd_toList]
    exact elements_performAll h.reachable calls
  · intro input reports rest hread
    exact exists_bytes_of_read hread

/-- Two equal constants of two slots and a third constant, pushed one after another. -/
def pushesOfTwoSlots : List Call := [.push (.long 42), .push (.long 42), .push (.integer 7)]

/-- The pool with two equal constants of two slots is nothing but its constants. -/
theorem lawful_performAll_pushesOfTwoSlots :
    IsOrigin empty ∧ (empty.performAll pushesOfTwoSlots).2.Lawful ∧
      (empty.performAll pushesOfTwoSlots).2.toList =
        [(1, .long 42), (3, .long 42), (5, .integer 7)] :=
  ⟨.empty, (lawful_performAll .empty pushesOfTwoSlots).1, rfl⟩

end JavaClass.ConstantPool
