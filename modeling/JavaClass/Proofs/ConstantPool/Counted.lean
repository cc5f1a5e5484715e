import JavaClass.Proofs.ConstantPool.Refusing
import JavaClass.Proofs.ConstantPool.Runs

/-!
# Counted pools

A pool is read if its constants take up exactly the slots that it declares. One that declares none
at all, or whose last constant takes up a slot more than is left, is miscounted; and as every
constant takes up a slot, it is always found out which of these is the case.

- `Reader.Loops`: loops without a bound.
- `Reader.exists_loops`: a loop that uses something up in every round comes to an end.
- `Constant.normalized`: the constant that is read where another was written.
- `ConstantPool.IsCounted`: what a reader of pools makes of an input; `ConstantPool.isCounted` says
  that this holds of all inputs.
-/

namespace JavaClass

open Reader

/-! ## Loops without a bound -/

namespace Reader

variable {σ : Type} {more : σ → Bytes → Bool} {step : σ → Reader σ} {state : σ} {input : Bytes}
  {reading : Reading σ}

/-- A loop without a bound, from a state and on an input, comes to an end with some reading, after
so many rounds. -/
inductive Loops (more : σ → Bytes → Bool) (step : σ → Reader σ) :
    Nat → σ → Bytes → Reading σ → Prop where
  /-- The loop is at its end where its condition does not hold. -/
  | stop {state : σ} {input : Bytes} (h : more state input = false) :
    Loops more step 0 state input ⟨[], .ok (state, input)⟩
  /-- The loop fails where its step does. -/
  | fail {state : σ} {input : Bytes} {reports : List Diagnostic} {cause : Error}
    (h : more state input = true) (hstep : (step state).Fails input reports cause) :
    Loops more step 0 state input ⟨reports, .error cause⟩
  /-- Otherwise it goes on from where its step ends. -/
  | round {rounds : Nat} {state next : σ} {input rest : Bytes} {reports : List Diagnostic}
    {reading : Reading σ} (h : more state input = true)
    (hstep : (step state).Reads input reports next rest)
    (hloop : Loops more step rounds next rest reading) :
    Loops more step (rounds + 1) state input ⟨reports ++ reading.reports, reading.outcome⟩

/-- A loop comes to one end. -/
theorem Loops.unique {rounds rounds' : Nat} {reading' : Reading σ}
    (h : Loops more step rounds state input reading)
    (h' : Loops more step rounds' state input reading') :
    rounds = rounds' ∧ reading = reading' := by
  induction h generalizing rounds' reading' with
  | stop hmore =>
    cases h' with
    | stop => exact ⟨rfl, rfl⟩
    | fail hmore' | round hmore' =>
      rw [hmore] at hmore'
      cases hmore'
  | fail hmore hstep =>
    cases h' with
    | stop hmore' =>
      rw [hmore] at hmore'
      cases hmore'
    | fail _ hstep' =>
      obtain ⟨rfl, rfl⟩ := hstep.unique hstep'
      exact ⟨rfl, rfl⟩
    | round _ hstep' => exact absurd hstep hstep'.not_fails
  | round hmore hstep _ ih =>
    cases h' with
    | stop hmore' =>
      rw [hmore] at hmore'
      cases hmore'
    | fail _ hstep' => exact absurd hstep' hstep.not_fails
    | round _ hstep' hloop' =>
      obtain ⟨rfl, rfl, rfl⟩ := hstep.unique hstep'
      obtain ⟨rfl, rfl⟩ := ih hloop'
      exact ⟨rfl, rfl⟩

/-- If every round uses up some of what is left, a loop without a bound comes to an end before all
is used up, and a bound on the rounds that allows for this does not cut it short. -/
theorem exists_loops (left : σ → Nat) {n : Nat}
    (hmore : ∀ state input, more state input = true → 0 < left state)
    (hstep : ∀ ⦃state input reports next rest⦄,
      (step state).Reads input reports next rest → left next < left state)
    (hn : left state ≤ n) :
    ∃ rounds ≤ left state,
      Loops more step rounds state input (iterate n more step state input) := by
  induction n generalizing state input with
  | zero =>
    have hstop : more state input = false := by
      rw [Bool.eq_false_iff]
      intro h
      have := hmore state input h
      omega
    exact ⟨0, Nat.zero_le _, .stop hstop⟩
  | succ n ih =>
    rw [iterate_succ]
    split
    · next h =>
      rw [bind_apply]
      obtain ⟨reports, next, rest, hreads⟩ | ⟨reports, cause, hfails⟩ :=
        reads_or_fails (step state) input
      · have hlt := hstep hreads
        obtain ⟨rounds, hle, hloop⟩ := @ih next rest (by omega)
        rw [Reads] at hreads
        rw [hreads]
        exact ⟨rounds + 1, by omega, .round h hreads hloop⟩
      · rw [Fails] at hfails
        rw [hfails]
        exact ⟨0, Nat.zero_le _, .fail h hfails⟩
    · next h => exact ⟨0, Nat.zero_le _, .stop (Bool.eq_false_iff.mpr h)⟩

end Reader

/-! ## Constants with the same bytes -/

namespace Constant

/-- The constant that is read where a constant was written: a string of units that is text is read
as text. -/
def normalized : Constant → Constant
  | utf16 units => ofUnits units
  | other => other

theorem canonical_normalized (constant : Constant) : constant.normalized.Canonical := by
  cases constant with
  | utf16 units =>
    obtain ⟨text, htext, -⟩ | ⟨hunits, hnone⟩ := ofUnits_eq_iff.mp (rfl : ofUnits units = _)
    · rw [normalized, htext]
      trivial
    · rw [normalized, hunits]
      exact hnone
  | _ => trivial

/-- A constant and the one that is read for it are written with the same bytes. -/
theorem write_normalized (constant : Constant) : constant.normalized.write = constant.write := by
  cases constant with
  | utf16 units =>
    obtain ⟨text, htext, hunits⟩ | ⟨hunits, -⟩ := ofUnits_eq_iff.mp (rfl : ofUnits units = _)
    · rw [normalized, htext, hunits]
      rfl
    · rw [normalized, hunits]
  | _ => rfl

/-- A constant and the one that is read for it take up the same slots. -/
theorem width_normalized (constant : Constant) : width constant.normalized = width constant := by
  cases constant with
  | utf16 units =>
    obtain ⟨text, htext, -⟩ | ⟨hunits, -⟩ := ofUnits_eq_iff.mp (rfl : ofUnits units = _)
    · rw [normalized, htext]
      rfl
    · rw [normalized, hunits]
  | _ => rfl

theorem normalized_of_canonical {constant : Constant} (h : constant.Canonical) :
    constant.normalized = constant := by
  cases constant with
  | utf16 units => exact ofUnits_eq_iff.mpr (.inr ⟨rfl, h⟩)
  | _ => rfl

/-- Constants and those that are read for them are written with the same bytes. -/
theorem writeAll_normalized {constants : List Constant} {bytes : Bytes} :
    writeAll Constant.write (constants.map normalized) = .ok bytes ↔
      writeAll Constant.write constants = .ok bytes := by
  induction constants generalizing bytes with
  | nil => rfl
  | cons constant constants ih =>
    simp only [List.map_cons, writeAll_cons_eq_ok, write_normalized, ih]

/-- Constants and those that are read for them take up the same slots. -/
theorem sum_width_normalized (constants : List Constant) :
    ((constants.map normalized).map width).sum = (constants.map width).sum := by
  rw [List.map_map]
  exact congrArg List.sum (List.map_congr_left fun constant _ => width_normalized constant)

theorem forall_canonical_normalized (constants : List Constant) :
    ∀ constant ∈ constants.map normalized, constant.Canonical := by
  intro constant hmem
  obtain ⟨original, -, rfl⟩ := List.mem_map.mp hmem
  exact canonical_normalized original

/-- The constants of two slots are the literals of eight bytes. -/
theorem width_eq_two_iff {constant : Constant} :
    width constant = 2 ↔ (∃ value, constant = .long value) ∨ ∃ bits, constant = .double bits := by
  cases constant <;> simp [width]

end Constant

/-! ## Pools -/

namespace ConstantPool

variable {pool : ConstantPool} {count : UInt16} {input rest : Bytes} {reports : List Diagnostic}

/-- A pool is read from where a count stands in front of constants that take up as many slots as it
declares. -/
theorem reads_read :
    ConstantPool.read.Reads input reports pool rest ↔
      reports = [] ∧ ∃ (count : UInt16) (constants : List Constant) (bytes : Bytes),
        input = Bytes.ofU2 count ++ bytes ++ rest ∧
        (∀ constant ∈ constants, constant.Canonical) ∧
        writeAll Constant.write constants = .ok bytes ∧
        1 + (constants.map width).sum = count.toNat ∧ pool = empty.addAll constants := by
  rw [inverts_read]
  simp only [ConstantPool.write, bind_eq_ok, pure_eq_ok, count16_eq_ok]
  constructor
  · rintro ⟨rfl, ⟨hreachable, hall⟩, _, ⟨count, hcount, bytes, hbytes, rfl⟩, rfl⟩
    have hnext : pool.next = 1 + (pool.constants.elements.map width).sum :=
      hreachable.filled.next_eq
    exact ⟨rfl, count, pool.constants.elements, bytes, rfl, hall, hbytes,
      hnext.symm.trans hcount.symm, hreachable.eq_addAll⟩
  · rintro ⟨rfl, count, constants, bytes, rfl, hall, hbytes, hcount, rfl⟩
    have hnext : (empty.addAll constants).next = count.toNat := by
      rw [next_addAll, next_empty, hcount]
    have helements : (empty.addAll constants).constants.elements = constants := elements_addAll ..
    have hlimit : (empty.addAll constants).next ≤ limit := by
      have := count.toNat_lt
      rw [hnext]
      unfold limit
      omega
    exact ⟨rfl, ⟨reachable_addAll .empty hlimit, by rwa [helements]⟩, _,
      ⟨count, hnext.symm, bytes, by rwa [helements], rfl⟩, rfl⟩

/-- A pool is miscounted if a constant of two slots would start in the last slot that is
declared. -/
theorem breaks_miscounted_iff {found : UInt16} :
    Breaks count pool input (.poolMiscounted found) ↔
      found = count ∧ ∃ (constants : List Constant) (bytes : Bytes) (last : Constant)
        (lastBytes rest : Bytes), (∀ constant ∈ constants, constant.Canonical) ∧
        writeAll Constant.write constants = .ok bytes ∧ last.write = .ok lastBytes ∧
        input = bytes ++ lastBytes ++ rest ∧ width last = 2 ∧
        pool.next + (constants.map width).sum + 1 = count.toNat := by
  constructor
  · rintro ⟨constants, bytes, _, hall, hbytes, rfl, hroom, hstuck⟩
    rw [next_addAll] at hroom hstuck
    cases hstuck with
    | unreadable h => exact absurd (Constant.obeys_read.failed h).2 id
    | @tooWide last lastBytes rest hcanonical hlast hinput hlt =>
      -- There is a slot left, and the constant takes up more than one, so it takes up two.
      have hwidth := last.width_le
      exact ⟨rfl, constants, bytes, last, lastBytes, rest, hall, hbytes, hlast,
        by rw [hinput, List.append_assoc], by omega, by omega⟩
  · rintro ⟨rfl, constants, bytes, last, lastBytes, rest, hall, hbytes, hlast, rfl, hwidth, hnext⟩
    refine ⟨constants, bytes, lastBytes ++ rest, hall, hbytes, List.append_assoc .., ?_, ?_⟩
    · rw [next_addAll]
      omega
    · rw [next_addAll]
      have hcanonical : last.Canonical := by
        obtain ⟨value, rfl⟩ | ⟨bits, rfl⟩ := Constant.width_eq_two_iff.mp hwidth
        all_goals trivial
      exact .tooWide hcanonical hlast rfl (by omega)

/-- The loop of a reader of pools comes to an end before it has taken as many rounds as the count
says, and without its bound it would do the same. -/
theorem exists_loops_read (hne : count ≠ 0) (behind : Bytes) :
    ∃ rounds < count.toNat,
      Loops (fun pool _ => pool.next < count.toNat) (readNext count) rounds empty behind
        (ConstantPool.read.run (Bytes.ofU2 count ++ behind)) := by
  have hpos : 0 < count.toNat := by
    rw [Nat.pos_iff_ne_zero, ← UInt16.toNat_zero, Ne, UInt16.toNat_inj]
    exact hne
  have hmore : ∀ (pool : ConstantPool) (_ : Bytes), decide (pool.next < count.toNat) = true →
      0 < count.toNat - pool.next := by
    intro pool _ hlt
    rw [decide_eq_true_eq] at hlt
    omega
  -- Every constant takes up a slot of those that are left.
  have hstep : ∀ ⦃pool input reports next rest⦄,
      (readNext count pool).Reads input reports next rest →
        count.toNat - next.next < count.toNat - pool.next := by
    intro pool input reports next rest hreads
    obtain ⟨-, constant, bytes, -, -, -, hroom, rfl⟩ := reads_readNext.mp hreads
    have := constant.width_pos
    rw [next_add]
    omega
  have hbound : count.toNat - empty.next ≤ count.toNat := Nat.sub_le ..
  obtain ⟨rounds, hle, hloop⟩ :=
    @exists_loops _ _ _ _ behind (fun pool : ConstantPool => count.toNat - pool.next) _ hmore hstep
      hbound
  refine ⟨rounds, by rw [next_empty] at hle; omega, ?_⟩
  rw [Reader.run, ConstantPool.read, bind_apply, u2_ofU2]
  simp only [if_neg hne, List.nil_append]
  exact hloop

/-- What a reader of pools makes of an input. -/
structure IsCounted (input : Bytes) : Prop where
  /-- A pool is read exactly from where a count stands in front of constants that take up one slot
  less than it says, and it lists these constants, in order. A string of units that is text is
  listed as text. -/
  accepted_iff : ∀ reports pool rest, ConstantPool.read.run input = ⟨reports, .ok (pool, rest)⟩ ↔
    reports = [] ∧ pool.Reachable ∧
      ∃ (count : UInt16) (constants : List Constant) (bytes : Bytes), 1 ≤ count.toNat ∧
        writeAll Constant.write constants = .ok bytes ∧
        (constants.map width).sum = count.toNat - 1 ∧ input = Bytes.ofU2 count ++ bytes ++ rest ∧
        pool.toList.map (·.2) = constants.map Constant.normalized
  /-- Every constant has the index that the constants before it make up, whether it is equal to one
  of them or not. -/
  indexed : ∀ reports pool rest, ConstantPool.read.run input = ⟨reports, .ok (pool, rest)⟩ →
    pool.IsIndexed
  /-- The bytes that were taken are those that the pool is written as. -/
  written : ∀ reports pool rest, ConstantPool.read.run input = ⟨reports, .ok (pool, rest)⟩ →
    ∃ taken, input = taken ++ rest ∧ pool.write = .ok taken
  /-- A pool is miscounted exactly if its count is zero, or if a literal of eight bytes stands
  behind constants that leave it only the last slot that is declared. -/
  miscounted_iff : ∀ reports count,
    ConstantPool.read.run input = ⟨reports, .error (.poolMiscounted count)⟩ ↔
      reports = [] ∧ ∃ behind, input = Bytes.ofU2 count ++ behind ∧
        (count = 0 ∨ ∃ (constants : List Constant) (bytes : Bytes) (last : Constant)
          (lastBytes rest : Bytes), writeAll Constant.write constants = .ok bytes ∧
          last.write = .ok lastBytes ∧ behind = bytes ++ lastBytes ++ rest ∧
          ((∃ value, last = .long value) ∨ ∃ bits, last = .double bits) ∧
          1 + (constants.map width).sum = count.toNat - 1)
  /-- No pool that is read is too full for a constant. -/
  not_full : ∀ reports constant offset,
    ConstantPool.read.run input ≠ ⟨reports, .error (.poolFull constant offset)⟩
  /-- The loop of the reader comes to an end by itself: without a bound, this is its only end. -/
  ends : ∀ count behind, input = Bytes.ofU2 count ++ behind → count ≠ 0 →
    ∃ rounds < count.toNat, ∀ n reading,
      Loops (fun pool _ => pool.next < count.toNat) (readNext count) n empty behind reading ↔
        n = rounds ∧ reading = ConstantPool.read.run input

/-- A pool is read from encodings of any constants, and lists those that are read for them. -/
theorem reads_read_iff_normalized :
    ConstantPool.read.Reads input reports pool rest ↔
      reports = [] ∧ pool.Reachable ∧
        ∃ (count : UInt16) (constants : List Constant) (bytes : Bytes), 1 ≤ count.toNat ∧
          writeAll Constant.write constants = .ok bytes ∧
          (constants.map width).sum = count.toNat - 1 ∧ input = Bytes.ofU2 count ++ bytes ++ rest ∧
          pool.toList.map (·.2) = constants.map Constant.normalized := by
  constructor
  · intro h
    obtain ⟨-, hcanonical, -⟩ := (inverts_read _ _ _ _).mp h
    obtain ⟨rfl, count, constants, bytes, hinput, hall, hbytes, hcount, rfl⟩ := reads_read.mp h
    have hnormalized : constants.map Constant.normalized = constants := by
      rw [List.map_congr_left fun constant hmem =>
        Constant.normalized_of_canonical (hall constant hmem), List.map_id']
    refine ⟨rfl, hcanonical.reachable, count, constants, bytes, by omega, hbytes, by omega, hinput,
      ?_⟩
    rw [map_snd_toList, elements_addAll, hnormalized]
    rfl
  · rintro ⟨rfl, hreachable, count, constants, bytes, hpos, hbytes, hsum, rfl, hlist⟩
    rw [map_snd_toList] at hlist
    refine reads_read.mpr ⟨rfl, count, constants.map Constant.normalized, bytes, rfl,
      Constant.forall_canonical_normalized constants, Constant.writeAll_normalized.mpr hbytes, ?_,
      ?_⟩
    · rw [Constant.sum_width_normalized]
      omega
    · rw [← hlist]
      exact hreachable.eq_addAll

/-- A pool is miscounted where it declares no slots, and where a constant of two slots would start
in the last one. -/
theorem fails_read_miscounted_iff :
    ConstantPool.read.Fails input reports (.poolMiscounted count) ↔
      reports = [] ∧ ∃ behind, input = Bytes.ofU2 count ++ behind ∧
        (count = 0 ∨ ∃ (constants : List Constant) (bytes : Bytes) (last : Constant)
          (lastBytes rest : Bytes), writeAll Constant.write constants = .ok bytes ∧
          last.write = .ok lastBytes ∧ behind = bytes ++ lastBytes ++ rest ∧
          ((∃ value, last = .long value) ∨ ∃ bits, last = .double bits) ∧
          1 + (constants.map width).sum = count.toNat - 1) := by
  rw [fails_read]
  refine and_congr_right fun hreports => ?_
  constructor
  · rintro (⟨-, hcause⟩ | ⟨found, behind, rfl, ⟨hzero, hcause⟩ | ⟨-, hbreaks⟩⟩)
    · cases hcause
    · cases hcause
      exact ⟨behind, rfl, .inl hzero⟩
    · obtain ⟨rfl, constants, bytes, last, lastBytes, rest, -, hbytes, hlast, hinput, hwidth,
        hnext⟩ := breaks_miscounted_iff.mp hbreaks
      rw [next_empty] at hnext
      exact ⟨behind, rfl, .inr ⟨constants, bytes, last, lastBytes, rest, hbytes, hlast, hinput,
        Constant.width_eq_two_iff.mp hwidth, by omega⟩⟩
  · rintro ⟨behind, rfl, hzero | ⟨constants, bytes, last, lastBytes, rest, hbytes, hlast, rfl,
      hwide, hnext⟩⟩
    · exact .inr ⟨count, behind, rfl, .inl ⟨hzero, rfl⟩⟩
    · have hne : count ≠ 0 := by
        rintro rfl
        rw [UInt16.toNat_zero] at hnext
        omega
      refine .inr ⟨count, _, rfl, .inr ⟨hne, breaks_miscounted_iff.mpr ⟨rfl,
        constants.map Constant.normalized, bytes, last, lastBytes, rest,
        Constant.forall_canonical_normalized constants, Constant.writeAll_normalized.mpr hbytes,
        hlast, rfl, Constant.width_eq_two_iff.mpr hwide, ?_⟩⟩⟩
      rw [Constant.sum_width_normalized, next_empty]
      omega

/-- Every input is a pool that is counted or one that is not. -/
theorem isCounted (input : Bytes) : IsCounted input where
  accepted_iff := fun _ _ _ => reads_read_iff_normalized
  indexed := by
    intro reports pool rest h
    obtain ⟨-, hcanonical, -⟩ := (inverts_read _ _ _ _).mp h
    exact hcanonical.reachable.isIndexed
  written := by
    intro reports pool rest h
    obtain ⟨-, -, taken, htaken, rfl⟩ := (inverts_read _ _ _ _).mp h
    exact ⟨taken, rfl, htaken⟩
  miscounted_iff := fun _ _ => fails_read_miscounted_iff
  not_full := by
    intro reports constant offset h
    obtain hmay | ⟨count, hcount⟩ := cause_of_fails_read h
    · exact hmay
    · cases hcount
  ends := by
    rintro count behind rfl hne
    obtain ⟨rounds, hlt, hloop⟩ := exists_loops_read hne behind
    refine ⟨rounds, hlt, fun n reading => ⟨fun h => h.unique hloop, ?_⟩⟩
    rintro ⟨rfl, rfl⟩
    exact hloop

/-- A count of two slots in front of a literal of eight bytes is a pool that is miscounted. -/
example : ConstantPool.read.run [0, 2, 5, 0, 0, 0, 0, 0, 0, 0, 1] =
    ⟨[], .error (.poolMiscounted 2)⟩ := rfl

end ConstantPool

end JavaClass
