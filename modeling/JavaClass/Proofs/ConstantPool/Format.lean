import JavaClass.ConstantPool.Format
import JavaClass.Proofs.Constant
import JavaClass.Proofs.ConstantPool

/-!
# Constant pools as bytes

Reading a pool is the inverse of writing it. A pool is read by adding one constant after another, so
what is read is a pool that was filled, and every filled pool whose constants can be read is read
back as it is, down to the first indices that it knows.

- `ConstantPool.reads_iterate`: the constants that a reader adds to a pool.
- `ConstantPool.inverts_read`: a reader of pools inverts the writer.
-/

namespace JavaClass.ConstantPool

variable {pool found : ConstantPool} {constant : Constant} {count : UInt16} {input rest : Bytes}
  {reports : List Diagnostic}

/-- A step adds the constant at the front of the input, if it ends before the declared count. -/
theorem reads_readNext :
    (readNext count pool).Reads input reports found rest ↔
      reports = [] ∧ ∃ constant bytes, constant.Canonical ∧ constant.write = .ok bytes ∧
        input = bytes ++ rest ∧ pool.next + width constant ≤ count.toNat ∧
        found = pool.add constant := by
  have hlimit : count.toNat ≤ limit := by
    have := count.toNat_lt
    unfold limit
    omega
  simp only [readNext, Reader.reads_bind, Constant.inverts_read _ _ _ _]
  constructor
  · rintro ⟨_, constant, between, _, ⟨rfl, hcanonical, bytes, hbytes, rfl⟩, hadd, rfl⟩
    split at hadd
    · simp at hadd
    · next hle =>
      rw [push_of_hasRoom (by unfold HasRoom; omega)] at hadd
      obtain ⟨rfl, rfl, rfl⟩ := Reader.reads_pure.mp hadd
      exact ⟨rfl, constant, bytes, hcanonical, hbytes, rfl, by omega, rfl⟩
  · rintro ⟨rfl, constant, bytes, hcanonical, hbytes, rfl, hle, rfl⟩
    refine ⟨[], constant, rest, [], ⟨rfl, hcanonical, bytes, hbytes, rfl⟩, ?_, rfl⟩
    rw [if_neg (Nat.not_lt.mpr hle), push_of_hasRoom (by unfold HasRoom; omega)]
    exact Reader.reads_pure.mpr ⟨rfl, rfl, rfl⟩

/-- The constants at the front of the input fill a pool up to the declared count. -/
def Fills (count : UInt16) (pool : ConstantPool) (input : Bytes) (found : ConstantPool)
    (rest : Bytes) : Prop :=
  ∃ constants bytes, (∀ constant ∈ constants, constant.Canonical) ∧
    writeAll Constant.write constants = .ok bytes ∧ input = bytes ++ rest ∧
    found = pool.addAll constants ∧ found.next = count.toNat

/-- A pool that is full is filled up with nothing, as every constant takes up a slot. -/
theorem fills_of_full (hfull : pool.next = count.toNat) :
    Fills count pool input found rest ↔ found = pool ∧ rest = input := by
  constructor
  · rintro ⟨constants, bytes, -, hbytes, rfl, rfl, hnext⟩
    cases constants with
    | nil =>
      cases hbytes
      exact ⟨rfl, rfl⟩
    | cons constant constants =>
      rw [addAll_cons, next_addAll, next_add] at hnext
      have := constant.width_pos
      omega
  · rintro ⟨rfl, rfl⟩
    exact ⟨[], [], by simp, rfl, rfl, rfl, hfull⟩

/-- A pool that is not full is filled up with a constant and then with others. -/
theorem fills_of_not_full (hlt : pool.next < count.toNat) :
    Fills count pool input found rest ↔
      ∃ constant bytes between, constant.Canonical ∧ constant.write = .ok bytes ∧
        input = bytes ++ between ∧ pool.next + width constant ≤ count.toNat ∧
        Fills count (pool.add constant) between found rest := by
  constructor
  · rintro ⟨constants, bytes, hall, hbytes, rfl, rfl, hnext⟩
    cases constants with
    | nil =>
      rw [addAll_nil] at hnext
      omega
    | cons constant constants =>
      obtain ⟨head, tail, hhead, htail, rfl⟩ := writeAll_cons_eq_ok.mp hbytes
      obtain ⟨hcanonical, hall⟩ := List.forall_mem_cons.mp hall
      refine ⟨constant, head, tail ++ rest, hcanonical, hhead, by simp, ?_,
        constants, tail, hall, htail, rfl, rfl, hnext⟩
      rw [addAll_cons, next_addAll, next_add] at hnext
      omega
  · rintro ⟨constant, head, _, hcanonical, hhead, rfl, -, constants, tail, hall, htail, rfl, rfl,
      hnext⟩
    exact ⟨constant :: constants, head ++ tail, List.forall_mem_cons.mpr ⟨hcanonical, hall⟩,
      writeAll_cons_eq_ok.mpr ⟨head, tail, hhead, htail, rfl⟩, by simp, rfl, hnext⟩

/-- A reader adds to a pool the constants that fill it up to the declared count. There are never
more of them than slots. -/
theorem reads_iterate {n : Nat} (hle : pool.next ≤ count.toNat) (hn : count.toNat ≤ pool.next + n) :
    (Reader.iterate n (fun pool _ => pool.next < count.toNat) (readNext count) pool).Reads input
        reports found rest ↔
      reports = [] ∧ Fills count pool input found rest := by
  -- The bound on the steps is at least the number of free slots, so it runs out with them.
  induction n generalizing pool input reports with
  | zero =>
    rw [Reader.reads_iterate_of_not (by simpa using hn),
      fills_of_full (Nat.le_antisymm hle (by simpa using hn))]
  | succ n ih =>
    rcases Nat.eq_or_lt_of_le hle with hfull | hlt
    · rw [Reader.reads_iterate_of_not (by simp [hfull]), fills_of_full hfull]
    · rw [Reader.reads_iterate_of (by simpa using hlt), fills_of_not_full hlt]
      simp only [reads_readNext]
      -- What the step leaves has the same bound of its own, as the constant took up a slot.
      have hbound : ∀ constant : Constant, count.toNat ≤ (pool.add constant).next + n := by
        intro constant
        have := constant.width_pos
        rw [next_add]
        omega
      constructor
      · rintro ⟨_, _, between, _, ⟨rfl, constant, bytes, hcanonical, hbytes, rfl, hroom, rfl⟩,
          hrest, rfl⟩
        obtain ⟨rfl, hfills⟩ := (ih (by rwa [next_add]) (hbound constant)).mp hrest
        exact ⟨rfl, constant, bytes, between, hcanonical, hbytes, rfl, hroom, hfills⟩
      · rintro ⟨rfl, constant, bytes, between, hcanonical, hbytes, rfl, hroom, hfills⟩
        exact ⟨[], pool.add constant, between, [],
          ⟨rfl, constant, bytes, hcanonical, hbytes, rfl, hroom, rfl⟩,
          (ih (by rwa [next_add]) (hbound constant)).mpr ⟨rfl, hfills⟩, rfl⟩

/-- The pools that a writer can write and a reader can read back. -/
structure Canonical (pool : ConstantPool) : Prop where
  /-- The pool was filled. -/
  reachable : pool.Reachable
  /-- Every constant can be read. -/
  constants : ∀ constant ∈ pool.constants.elements, constant.Canonical

/-- Units in such a pool are no text, so what is shown for them has a replacement character. -/
theorem Canonical.replacement_mem {index : ConstantIndex} {units : List UInt16}
    (h : pool.Canonical) (hget : pool.get index = .ok (.utf16 units)) :
    Utf16.replacement ∈ (Utf16.toTextLossy units).toList :=
  Utf16.replacement_mem_toTextLossy (h.constants _ (h.reachable.mem_of_get hget))

/-- Filling up an empty pool leaves a pool that was filled. -/
theorem reachable_addAll {constants : List Constant} (h : pool.Reachable)
    (hnext : (pool.addAll constants).next ≤ limit) : (pool.addAll constants).Reachable := by
  induction constants generalizing pool with
  | nil => exact h
  | cons constant constants ih =>
    rw [next_addAll, List.map_cons, List.sum_cons] at hnext
    have room : pool.HasRoom constant := by unfold HasRoom; omega
    refine ih (h.add room) ?_
    rw [next_addAll, next_add]
    omega

/-- A reader of pools inverts the writer. -/
theorem inverts_read : ConstantPool.read.Inverts Canonical ConstantPool.write := by
  intro input reports pool rest
  simp only [ConstantPool.read, ConstantPool.write, Reader.reads_bind, Reader.reads_u2, bind_eq_ok,
    count16_eq_ok, pure_eq_ok]
  constructor
  · rintro ⟨_, count, between, _, ⟨rfl, rfl⟩, h, rfl⟩
    split at h
    · simp at h
    · next hne =>
      have hpos : 1 ≤ count.toNat := by
        rw [← UInt16.toNat_inj] at hne
        exact Nat.pos_of_ne_zero hne
      obtain ⟨rfl, constants, bytes, hall, hbytes, rfl, rfl, hnext⟩ :=
        (reads_iterate (by rwa [next_empty]) (by rw [next_empty]; omega)).mp h
      have helements : (empty.addAll constants).constants.elements = constants :=
        elements_addAll ..
      have hcount := count.toNat_lt
      refine ⟨rfl, ⟨reachable_addAll .empty ?_, by rwa [helements]⟩, _,
        ⟨count, hnext.symm, bytes, by rwa [helements], rfl⟩, by simp⟩
      unfold limit
      omega
  · rintro ⟨rfl, ⟨hreachable, hall⟩, _, ⟨count, hcount, bytes, hbytes, rfl⟩, rfl⟩
    have hpos := hreachable.next_pos
    have hne : count ≠ 0 := by
      rintro rfl
      exact absurd hcount (Nat.ne_of_lt hpos)
    refine ⟨[], count, bytes ++ rest, [], ⟨rfl, by simp⟩, ?_, rfl⟩
    rw [if_neg hne]
    exact (reads_iterate (by rw [next_empty]; omega) (by rw [next_empty]; omega)).mpr
      ⟨rfl, pool.constants.elements, bytes, hall, hbytes, rfl, hreachable.eq_addAll, hcount.symm⟩

end JavaClass.ConstantPool
