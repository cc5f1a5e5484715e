import JavaClass.Proofs.ConstantPool.Format
import JavaClass.Proofs.Reading.Conduct

/-!
# Pools that are refused

A pool is refused for a constant that cannot be read, or for a constant of two slots where one slot
is left. In front of it stand constants that can be read, with slots left behind them.

- `Constant.MayFail`: the errors with which a constant is refused.
- `ConstantPool.fails_readNext`: a step of the reader fails.
- `ConstantPool.Breaks`: the place at which a pool cannot be filled up.
- `ConstantPool.fails_iterate`: a reader fails at such a place, and reports nothing.
-/

namespace JavaClass

open Reader

/-! ## Constants -/

/-- The errors with which a constant is refused. -/
def Constant.MayFail : Error → Prop
  | .endOfInput _ | .unknownTag _ | .unknownReferenceKind _ | .notModifiedUtf8 _ => True
  | _ => False

/-- Nothing is reported about a constant. -/
def Constant.conduct : Conduct := .silent MayFail fun _ => trivial

theorem ReferenceKind.obeys_read : ReferenceKind.read.Obeys Constant.conduct := by
  refine obeys_u1.bind fun byte => ?_
  split
  · exact obeys_pure _
  · exact obeys_fail fun _ => ⟨rfl, trivial⟩

namespace Constant

/-- The bytes of a string are refused if they are not modified UTF-8. -/
theorem mayFail_of_unitsOfBytes {bytes : Bytes} {cause : Error}
    (h : unitsOfBytes bytes = .error cause) : MayFail cause := by
  unfold unitsOfBytes at h
  cases hdecode : ModifiedUtf8.decode bytes with
  | error offset =>
    rw [hdecode] at h
    cases h
    trivial
  | ok units =>
    rw [hdecode] at h
    cases h

theorem obeys_unitsOfBytes (bytes : Bytes) : (ofExcept (unitsOfBytes bytes)).Obeys conduct :=
  obeys_ofExcept fun _ h _ => ⟨rfl, mayFail_of_unitsOfBytes h⟩

theorem obeys_readFields (tag : UInt8) : (readFields tag).Obeys conduct := by
  unfold readFields
  split
  case h_1 =>
    exact obeys_u2.bind fun count => (obeys_bytes count.toNat).bind fun bytes =>
      (obeys_unitsOfBytes bytes).map ofUnits
  -- The kinds of one word.
  case h_2 | h_3 => exact obeys_u4.map _
  case h_4 | h_5 => exact obeys_u8.map _
  case h_6 | h_7 | h_13 => exact obeys_u2.map _
  -- The kinds of two indices.
  case h_8 | h_9 | h_10 | h_11 | h_14 => exact obeys_u2.bind fun _ => obeys_u2.map _
  case h_12 => exact ReferenceKind.obeys_read.bind fun _ => obeys_u2.map _
  case h_15 => exact obeys_fail fun _ => ⟨rfl, trivial⟩

/-- A constant is refused silently, and only for what it is itself. -/
theorem obeys_read : Constant.read.Obeys conduct := obeys_u1.bind obeys_readFields

end Constant

/-! ## Steps -/

namespace ConstantPool

variable {pool : ConstantPool} {count : UInt16} {input : Bytes} {reports : List Diagnostic}
  {cause : Error}

/-- At an offset, no constant can be added from an input to a pool of a declared count. -/
inductive Stuck (count : UInt16) (next : Nat) (input : Bytes) : Error → Prop where
  /-- No constant can be read. -/
  | unreadable {cause : Error} (h : Constant.read.Fails input [] cause) :
    Stuck count next input cause
  /-- A constant can be read, but it would end behind the declared count. -/
  | tooWide {constant : Constant} {bytes rest : Bytes} (hcanonical : constant.Canonical)
    (hbytes : constant.write = .ok bytes) (hinput : input = bytes ++ rest)
    (hlt : count.toNat < next + width constant) : Stuck count next input (.poolMiscounted count)

/-- A step fails exactly if no constant can be added. It is never the limit of pools that stops it,
which no declared count exceeds. -/
theorem fails_readNext :
    (readNext count pool).Fails input reports cause ↔
      reports = [] ∧ Stuck count pool.next input cause := by
  have hlimit : count.toNat ≤ limit := by
    have := count.toNat_lt
    unfold limit
    omega
  simp only [readNext, fails_bind, Constant.inverts_read _ _ _ _]
  constructor
  · rintro (hfails | ⟨_, constant, rest, _, ⟨rfl, hcanonical, bytes, hbytes, rfl⟩, hfails, rfl⟩)
    · obtain ⟨rfl, -⟩ := Constant.obeys_read.failed hfails
      exact ⟨rfl, .unreadable hfails⟩
    · split at hfails
      · next hlt =>
        obtain ⟨rfl, rfl⟩ := fails_fail.mp hfails
        exact ⟨rfl, .tooWide hcanonical hbytes rfl hlt⟩
      · -- A constant that ends before the declared count has room in the pool.
        rw [push_of_hasRoom (by unfold HasRoom; omega)] at hfails
        exact absurd hfails fails_pure
  · rintro ⟨rfl, hfails | @⟨constant, bytes, rest, hcanonical, hbytes, rfl, hlt⟩⟩
    · exact .inl hfails
    · refine .inr ⟨[], constant, rest, [], ⟨rfl, hcanonical, bytes, hbytes, rfl⟩, ?_, rfl⟩
      rw [if_pos hlt]
      exact fails_fail.mpr ⟨rfl, rfl⟩

/-! ## Runs -/

/-- Behind some constants, with slots left, no more can be added to a pool. -/
def Breaks (count : UInt16) (pool : ConstantPool) (input : Bytes) (cause : Error) : Prop :=
  ∃ constants bytes rest, (∀ constant ∈ constants, constant.Canonical) ∧
    writeAll Constant.write constants = .ok bytes ∧ input = bytes ++ rest ∧
    (pool.addAll constants).next < count.toNat ∧
    Stuck count (pool.addAll constants).next rest cause

/-- A pool that is not full breaks at the next constant or behind it. -/
theorem breaks_iff (hlt : pool.next < count.toNat) :
    Breaks count pool input cause ↔
      Stuck count pool.next input cause ∨
        ∃ constant bytes between, constant.Canonical ∧ constant.write = .ok bytes ∧
          input = bytes ++ between ∧ pool.next + width constant ≤ count.toNat ∧
          Breaks count (pool.add constant) between cause := by
  constructor
  · rintro ⟨constants, bytes, rest, hall, hbytes, rfl, hroom, hstuck⟩
    cases constants with
    | nil =>
      cases hbytes
      exact .inl hstuck
    | cons constant constants =>
      obtain ⟨head, tail, hhead, htail, rfl⟩ := writeAll_cons_eq_ok.mp hbytes
      obtain ⟨hcanonical, hall⟩ := List.forall_mem_cons.mp hall
      refine .inr ⟨constant, head, tail ++ rest, hcanonical, hhead, by simp, ?_,
        constants, tail, rest, hall, htail, rfl, hroom, hstuck⟩
      rw [addAll_cons, next_addAll, next_add] at hroom
      omega
  · rintro (hstuck | ⟨constant, head, _, hcanonical, hhead, rfl, -, constants, tail, rest, hall,
      htail, rfl, hroom, hstuck⟩)
    · exact ⟨[], [], input, List.forall_mem_nil _, rfl, rfl, hlt, hstuck⟩
    · exact ⟨constant :: constants, head ++ tail, rest, List.forall_mem_cons.mpr ⟨hcanonical, hall⟩,
        writeAll_cons_eq_ok.mpr ⟨head, tail, hhead, htail, rfl⟩, by simp, hroom, hstuck⟩

/-- A full pool does not break. -/
theorem not_breaks_of_le (hle : count.toNat ≤ pool.next) : ¬ Breaks count pool input cause := by
  rintro ⟨constants, bytes, rest, -, -, -, hroom, -⟩
  rw [next_addAll] at hroom
  omega

/-- A reader that fills a pool up fails exactly where the pool breaks. -/
theorem fails_iterate {n : Nat} (hn : count.toNat ≤ pool.next + n) :
    (Reader.iterate n (fun pool _ => pool.next < count.toNat) (readNext count) pool).Fails input
        reports cause ↔
      reports = [] ∧ Breaks count pool input cause := by
  -- Nothing fails in a pool that is full.
  have hfull {n : Nat} {pool : ConstantPool} {input : Bytes} {reports : List Diagnostic}
      (hle : count.toNat ≤ pool.next) :
      (Reader.iterate n (fun pool _ => pool.next < count.toNat) (readNext count) pool).Fails input
          reports cause ↔ reports = [] ∧ Breaks count pool input cause :=
    iff_of_false (fails_iterate_of_not (by simpa using hle)) fun h => not_breaks_of_le hle h.2
  -- The bound on the steps is at least the number of free slots, so it runs out with them.
  induction n generalizing pool input reports with
  | zero => exact hfull hn
  | succ n ih =>
    rcases Nat.lt_or_ge pool.next count.toNat with hlt | hle
    · rw [fails_iterate_of (by simpa using hlt), breaks_iff hlt]
      simp only [fails_readNext, reads_readNext]
      -- What the step leaves has the same bound of its own, as the constant took up a slot.
      have hbound : ∀ constant : Constant, count.toNat ≤ (pool.add constant).next + n := by
        intro constant
        have := constant.width_pos
        rw [next_add]
        omega
      constructor
      · rintro (⟨rfl, hstuck⟩ | ⟨_, _, between, _, ⟨rfl, constant, bytes, hcanonical, hbytes, rfl,
          hroom, rfl⟩, hfails, rfl⟩)
        · exact ⟨rfl, .inl hstuck⟩
        · obtain ⟨rfl, hbreaks⟩ := (ih (hbound constant)).mp hfails
          exact ⟨rfl, .inr ⟨constant, bytes, between, hcanonical, hbytes, rfl, hroom, hbreaks⟩⟩
      · rintro ⟨rfl, hstuck | ⟨constant, bytes, between, hcanonical, hbytes, rfl, hroom, hbreaks⟩⟩
        · exact .inl ⟨rfl, hstuck⟩
        · exact .inr ⟨[], pool.add constant, between, [],
            ⟨rfl, constant, bytes, hcanonical, hbytes, rfl, hroom, rfl⟩,
            (ih (hbound constant)).mpr ⟨rfl, hbreaks⟩, rfl⟩
    · exact hfull hle

/-- A pool is refused if its count is cut off or zero, or if it breaks. Nothing is reported. -/
theorem fails_read :
    ConstantPool.read.Fails input reports cause ↔
      reports = [] ∧ (input.length < 2 ∧ cause = .endOfInput .fixed ∨
        ∃ count behind, input = Bytes.ofU2 count ++ behind ∧
          (count = 0 ∧ cause = .poolMiscounted count ∨
            count ≠ 0 ∧ Breaks count empty behind cause)) := by
  have hbound (count : UInt16) : count.toNat ≤ empty.next + count.toNat := Nat.le_add_left ..
  simp only [ConstantPool.read, fails_bind, fails_u2, reads_u2]
  constructor
  · rintro (⟨hlt, rfl, rfl⟩ | ⟨_, count, behind, _, ⟨rfl, rfl⟩, hfails, rfl⟩)
    · exact ⟨rfl, .inl ⟨hlt, rfl⟩⟩
    · split at hfails
      · next hzero =>
        obtain ⟨rfl, rfl⟩ := fails_fail.mp hfails
        exact ⟨rfl, .inr ⟨count, behind, rfl, .inl ⟨hzero, rfl⟩⟩⟩
      · next hne =>
        obtain ⟨rfl, hbreaks⟩ := (fails_iterate (hbound count)).mp hfails
        exact ⟨rfl, .inr ⟨count, behind, rfl, .inr ⟨hne, hbreaks⟩⟩⟩
  · rintro ⟨rfl, ⟨hlt, rfl⟩ | ⟨count, behind, rfl, h⟩⟩
    · exact .inl ⟨hlt, rfl, rfl⟩
    · refine .inr ⟨[], count, behind, [], ⟨rfl, rfl⟩, ?_, rfl⟩
      obtain ⟨hzero, rfl⟩ | ⟨hne, hbreaks⟩ := h
      · rw [if_pos hzero]
        exact fails_fail.mpr ⟨rfl, rfl⟩
      · rw [if_neg hne]
        exact (fails_iterate (hbound count)).mpr ⟨rfl, hbreaks⟩

/-- A pool that is refused is miscounted, or one of its constants cannot be read. -/
theorem cause_of_fails_read (h : ConstantPool.read.Fails input reports cause) :
    Constant.MayFail cause ∨ ∃ count, cause = .poolMiscounted count := by
  obtain ⟨-, ⟨-, rfl⟩ | ⟨count, behind, -, ⟨-, rfl⟩ | ⟨-, _, _, _, -, -, -, -, hstuck⟩⟩⟩ :=
    fails_read.mp h
  · exact .inl trivial
  · exact .inr ⟨count, rfl⟩
  · cases hstuck with
    | unreadable h => exact .inl (Constant.obeys_read.failed h).2
    | tooWide => exact .inr ⟨count, rfl⟩

end ConstantPool

end JavaClass
