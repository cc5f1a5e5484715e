import JavaClass.Proofs.Reading

/-!
# What writers refuse

A writer that is put together from others refuses a value if one of them refuses its part, and for
the same cause; a table is also refused if two bytes cannot say how many entries it has. What a
reader of tables yields has as many entries as were counted, so only its entries can be refused.

- `bind_eq_error`, `map_eq_error`: a computation fails where one of its steps does.
- `exists_of_writeTable_eq_error`: the count or an entry of a table is refused.
- `Reader.WritableUnless`: what a reader yields is written, or there is a reason why it is not.
-/

namespace JavaClass

variable {α β ε : Type}

/-- Of two computations one after the other, the first one fails, or the second one after it. -/
theorem bind_eq_error {first : Except ε α} {second : α → Except ε β} {cause : ε} :
    (first >>= second) = .error cause ↔
      first = .error cause ∨ ∃ found, first = .ok found ∧ second found = .error cause := by
  cases first with
  | error cause => simp [bind, Except.bind]
  | ok found => simp [bind, Except.bind]

/-- A result is changed only if there is one. -/
theorem map_eq_error {first : Except ε α} {change : α → β} {cause : ε} :
    first.map change = .error cause ↔ first = .error cause := by
  cases first <;> simp [Except.map]

/-- What is returned is no failure. -/
@[simp]
theorem pure_ne_error {value : α} {cause : ε} : (pure value : Except ε α) ≠ .error cause := by
  simp [pure, Except.pure]

/-- A count is refused if it is more than two bytes can say. -/
theorem count16_eq_error_iff {what : String} {count : Nat} {cause : Error} :
    count16 what count = .error cause ↔ 0x10000 ≤ count ∧ cause = .tooMany what count := by
  unfold count16
  split
  · next hlt => simp [Nat.not_le_of_lt hlt]
  · next hge =>
    rw [Except.error.injEq, eq_comm, and_iff_right (Nat.le_of_not_lt hge)]

/-- A count is refused if it is more than four bytes can say. -/
theorem count32_eq_error_iff {what : String} {count : Nat} {cause : Error} :
    count32 what count = .error cause ↔ 0x100000000 ≤ count ∧ cause = .tooMany what count := by
  unfold count32
  split
  · next hlt => simp [Nat.not_le_of_lt hlt]
  · next hge =>
    rw [Except.error.injEq, eq_comm, and_iff_right (Nat.le_of_not_lt hge)]

variable {write : α → Except Error Bytes}

/-- Entries are refused for what one of them is refused for. -/
theorem exists_of_writeAll_eq_error {entries : List α} {cause : Error}
    (h : writeAll write entries = .error cause) :
    ∃ entry ∈ entries, write entry = .error cause := by
  rw [writeAll, map_eq_error] at h
  induction entries with
  | nil => cases h
  | cons entry entries ih =>
    rw [List.mapM_cons, bind_eq_error] at h
    obtain hentry | ⟨_, -, h⟩ := h
    · exact ⟨entry, List.mem_cons_self, hentry⟩
    · rw [bind_eq_error] at h
      obtain hentries | ⟨_, -, h⟩ := h
      · obtain ⟨found, hmem, hfound⟩ := ih hentries
        exact ⟨found, List.mem_cons_of_mem entry hmem, hfound⟩
      · exact absurd h pure_ne_error

/-- A table is refused for the number of its entries or for one of them. -/
theorem exists_of_writeTable_eq_error {what : String} {entries : List α} {cause : Error}
    (h : writeTable what write entries = .error cause) :
    0x10000 ≤ entries.length ∧ cause = .tooMany what entries.length ∨
      ∃ entry ∈ entries, write entry = .error cause := by
  simp only [writeTable, bind_eq_error, count16_eq_error_iff, pure_ne_error, and_false,
    exists_false, or_false] at h
  obtain hcount | ⟨_, -, hentries⟩ := h
  · exact .inl hcount
  · exact .inr (exists_of_writeAll_eq_error hentries)

/-- A table of entries that are never refused is refused for the number of its entries. -/
theorem of_writeTable_ok_eq_error {what : String} {toBytes : α → Bytes} {entries : List α}
    {cause : Error}
    (h : writeTable what (fun entry => .ok (toBytes entry)) entries = .error cause) :
    0x10000 ≤ entries.length ∧ cause = .tooMany what entries.length := by
  obtain hcount | ⟨entry, -, hentry⟩ := exists_of_writeTable_eq_error h
  · exact hcount
  · cases hentry

namespace Reader

/-- If what a reader yields cannot be written, there is a reason for the cause that is given. -/
def WritableUnless (reader : Reader α) (Reason : α → Error → Prop)
    (write : α → Except Error Bytes) : Prop :=
  ∀ ⦃input reports value rest⦄, reader.Reads input reports value rest →
    ∀ ⦃cause⦄, write value = .error cause → Reason value cause

/-- The count of a table that was read can be written, so there is a reason in one of its entries if
the table cannot. -/
theorem WritableUnless.table {reader : Reader α} {Reason : α → Error → Prop}
    (h : reader.WritableUnless Reason write) (what : String) :
    (table reader).WritableUnless (fun values cause => ∃ value ∈ values, Reason value cause)
      (writeTable what write) := by
  intro input reports values rest hreads cause herror
  obtain ⟨count, between, rfl, htimes⟩ := reads_table.mp hreads
  have hlen := length_of_reads_times htimes
  have hlt := count.toNat_lt
  obtain ⟨hle, -⟩ | ⟨value, hmem, hvalue⟩ := exists_of_writeTable_eq_error herror
  · -- The count was read, so two bytes can say it.
    omega
  · have hreason : ∀ value ∈ values, ∀ cause, write value = .error cause → Reason value cause :=
      forall_of_reads_times (fun _ _ _ _ hvalue cause herror => h hvalue herror) htimes
    exact ⟨value, hmem, hreason value hmem cause hvalue⟩

end Reader

end JavaClass
