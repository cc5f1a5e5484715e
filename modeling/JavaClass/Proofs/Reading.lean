import JavaClass.Proofs.Writing
import Mathlib.Tactic.Common

/-!
# What readers yield

When a reader succeeds, on what input, and what it leaves. Every combinator has one equivalence, so
that what a composite reader does is worked out from its parts in both directions.

- `Reader.Reads`: a reader yields a value, leaves bytes and reports something.
- `Reader.reads_bind`, `Reader.reads_u2`, `Reader.reads_bytes` and others: one for each combinator.
- `Reader.Inverts`: a reader yields exactly the values whose bytes a writer puts there.
- `Reader.Inverts.table`: a reader of tables inverts a writer of tables.
-/

namespace JavaClass.Reader

variable {α β γ : Type}

/-- On an input, a reader succeeds with a value, leaves bytes, and reports something before. -/
def Reads (reader : Reader α) (input : Bytes) (reports : List Diagnostic) (value : α)
    (rest : Bytes) : Prop :=
  reader input = ⟨reports, .ok (value, rest)⟩

/-- A reader reads one value off an input. -/
theorem Reads.unique {reader : Reader α} {input rest rest' : Bytes}
    {reports reports' : List Diagnostic} {value value' : α}
    (h : reader.Reads input reports value rest) (h' : reader.Reads input reports' value' rest') :
    reports = reports' ∧ value = value' ∧ rest = rest' := by
  have heq := Eq.trans h.symm h'
  simpa only [Reading.mk.injEq, Except.ok.injEq, Prod.mk.injEq] using heq

section Combinators

variable {input : Bytes} {reports : List Diagnostic} {rest : Bytes}

@[simp]
theorem reads_pure {value found : α} :
    (pure value : Reader α).Reads input reports found rest ↔
      reports = [] ∧ found = value ∧ rest = input := by
  simp only [Reads, pure_apply, Reading.mk.injEq, Except.ok.injEq, Prod.mk.injEq]
  tauto

/-- Two readers succeed one after the other exactly if both do, and the second reads on from where
the first one stopped. -/
theorem reads_bind {first : Reader α} {second : α → Reader β} {value : β} :
    (first >>= second).Reads input reports value rest ↔
      ∃ before found between after, first.Reads input before found between ∧
        (second found).Reads between after value rest ∧ reports = before ++ after := by
  rw [Reads, bind_apply]
  constructor
  · intro h
    split at h
    · simp at h
    · next before found between hfirst =>
      obtain ⟨hreports, houtcome⟩ := Reading.mk.inj h
      refine ⟨before, found, between, _, hfirst, ?_, hreports.symm⟩
      exact ext_reading rfl houtcome
  · rintro ⟨before, found, between, after, hfirst, hsecond, rfl⟩
    rw [Reads] at hfirst hsecond
    simp [hfirst, hsecond]

/-- A changed value is read from the same input. -/
theorem reads_map {reader : Reader α} {make : α → β} {value : β} :
    (do return make (← reader) : Reader β).Reads input reports value rest ↔
      ∃ found, reader.Reads input reports found rest ∧ make found = value := by
  simp only [reads_bind, reads_pure]
  constructor
  · rintro ⟨_, found, _, _, hfound, ⟨rfl, rfl, rfl⟩, rfl⟩
    exact ⟨found, by rwa [List.append_nil], rfl⟩
  · rintro ⟨found, hfound, rfl⟩
    exact ⟨reports, found, rest, [], hfound, ⟨rfl, rfl, rfl⟩, by rw [List.append_nil]⟩

/-- A value that is put together from two is read from where both stand. -/
theorem reads_map₂ {first : Reader α} {second : Reader β} {make : α → β → γ} {value : γ} :
    (do return make (← first) (← second) : Reader γ).Reads input reports value rest ↔
      ∃ before a between after b, first.Reads input before a between ∧
        second.Reads between after b rest ∧ reports = before ++ after ∧ make a b = value := by
  rw [reads_bind]
  simp only [reads_map]
  constructor
  · rintro ⟨before, a, between, after, ha, ⟨b, hb, rfl⟩, rfl⟩
    exact ⟨before, a, between, after, b, ha, hb, rfl, rfl⟩
  · rintro ⟨before, a, between, after, b, ha, hb, rfl, rfl⟩
    exact ⟨before, a, between, after, ha, ⟨b, hb, rfl⟩, rfl⟩

@[simp]
theorem reads_fail {cause : Error} {value : α} :
    ¬ (fail cause : Reader α).Reads input reports value rest := by
  simp [Reads, fail]

@[simp]
theorem reads_report {diagnostic : Diagnostic} {value : Unit} :
    (report diagnostic).Reads input reports value rest ↔
      reports = [diagnostic] ∧ rest = input := by
  simp only [Reads, report, Reading.mk.injEq, Except.ok.injEq, Prod.mk.injEq]
  tauto

@[simp]
theorem reads_ofExcept {result : Except Error α} {value : α} :
    (ofExcept result).Reads input reports value rest ↔
      reports = [] ∧ result = .ok value ∧ rest = input := by
  cases result with
  | error cause => simp [ofExcept]
  | ok found =>
    change (pure found : Reader α).Reads input reports value rest ↔ _
    rw [reads_pure, Except.ok.injEq]
    tauto

/-! ## Words and bytes -/

@[simp]
theorem reads_u1 {value : UInt8} :
    u1.Reads input reports value rest ↔ reports = [] ∧ input = Bytes.ofU1 value ++ rest := by
  constructor
  · intro h
    match input, h with
    | byte :: others, h =>
      simp only [Reads, u1, Reading.mk.injEq, Except.ok.injEq, Prod.mk.injEq] at h
      obtain ⟨rfl, rfl, rfl⟩ := h
      exact ⟨rfl, rfl⟩
  · rintro ⟨rfl, rfl⟩
    exact u1_ofU1 value rest

@[simp]
theorem reads_u2 {value : UInt16} :
    u2.Reads input reports value rest ↔ reports = [] ∧ input = Bytes.ofU2 value ++ rest := by
  constructor
  · intro h
    unfold Reads u2 at h
    split at h
    · simp only [Reading.mk.injEq, Except.ok.injEq, Prod.mk.injEq] at h
      obtain ⟨rfl, rfl, rfl⟩ := h
      rw [Bytes.ofU2_ofNat]
      exact ⟨rfl, rfl⟩
    · simp at h
  · rintro ⟨rfl, rfl⟩
    exact u2_ofU2 value rest

@[simp]
theorem reads_u4 {value : UInt32} :
    u4.Reads input reports value rest ↔ reports = [] ∧ input = Bytes.ofU4 value ++ rest := by
  constructor
  · intro h
    unfold Reads u4 at h
    split at h
    · simp only [Reading.mk.injEq, Except.ok.injEq, Prod.mk.injEq] at h
      obtain ⟨rfl, rfl, rfl⟩ := h
      rw [Bytes.ofU4_ofNat]
      exact ⟨rfl, rfl⟩
    · simp at h
  · rintro ⟨rfl, rfl⟩
    exact u4_ofU4 value rest

@[simp]
theorem reads_u8 {value : UInt64} :
    u8.Reads input reports value rest ↔ reports = [] ∧ input = Bytes.ofU8 value ++ rest := by
  constructor
  · intro h
    unfold Reads u8 at h
    split at h
    · simp only [Reading.mk.injEq, Except.ok.injEq, Prod.mk.injEq] at h
      obtain ⟨rfl, rfl, rfl⟩ := h
      -- Eight bytes are two words of four, and each half keeps all its digits.
      rw [Bytes.ofU8_ofNat (Bytes.digits_lt ..) (Bytes.digits_lt ..), Bytes.ofU4_ofNat,
        Bytes.ofU4_ofNat]
      exact ⟨rfl, rfl⟩
    · simp at h
  · rintro ⟨rfl, rfl⟩
    exact u8_ofU8 value rest

/-- A field of declared size is as long as declared. -/
@[simp]
theorem reads_bytes {size : Nat} {field : Bytes} :
    (bytes size).Reads input reports field rest ↔
      reports = [] ∧ field.length = size ∧ input = field ++ rest := by
  unfold Reads bytes
  simp only
  constructor
  · intro h
    split at h
    · next hlen =>
      simp only [Reading.mk.injEq, Except.ok.injEq, Prod.mk.injEq] at h
      obtain ⟨rfl, rfl, rfl⟩ := h
      exact ⟨rfl, hlen, (List.take_append_drop size input).symm⟩
    · simp at h
  · rintro ⟨rfl, rfl, rfl⟩
    simp

/-- A field whose size the format fixes is as long as its type says. -/
@[simp]
theorem reads_fixed {size : Nat} {field : { field : Bytes // field.length = size }} :
    (fixed size).Reads input reports field rest ↔ reports = [] ∧ input = field.val ++ rest := by
  unfold Reads fixed
  simp only
  constructor
  · intro h
    split at h
    · simp only [Reading.mk.injEq, Except.ok.injEq, Prod.mk.injEq] at h
      obtain ⟨rfl, rfl, rfl⟩ := h
      exact ⟨rfl, (List.take_append_drop size input).symm⟩
    · simp at h
  · obtain ⟨field, rfl⟩ := field
    rintro ⟨rfl, rfl⟩
    simp

/-- A reader for a string of bytes of its own does not touch the input. -/
@[simp]
theorem reads_within {body : Bytes} {reader : Reader α} {value : α × Bytes} :
    (within body reader).Reads input reports value rest ↔
      reader.Reads body reports value.1 value.2 ∧ rest = input := by
  obtain ⟨value, unused⟩ := value
  unfold Reads within
  rcases reader body with ⟨found, _ | ⟨_, _⟩⟩
  · simp
  · simp only [Reading.mk.injEq, Except.ok.injEq, Prod.mk.injEq]
    tauto

/-! ## Readers that report nothing

What follows a reader that reports nothing makes all reports, so that chains of such readers come
down to the bytes that they read. -/

section Silent

variable {first : Reader α} {second : α → Reader β} {value : β}

/-- What follows a reader that reports nothing makes all reports. -/
theorem reads_bind_of_silent {Takes : Bytes → α → Bytes → Prop}
    (h : ∀ input reports found rest,
      first.Reads input reports found rest ↔ reports = [] ∧ Takes input found rest) :
    (first >>= second).Reads input reports value rest ↔
      ∃ found between, Takes input found between ∧
        (second found).Reads between reports value rest := by
  simp only [reads_bind, h]
  constructor
  · rintro ⟨_, found, between, _, ⟨rfl, htakes⟩, hsecond, rfl⟩
    exact ⟨found, between, htakes, hsecond⟩
  · rintro ⟨found, between, htakes, hsecond⟩
    exact ⟨[], found, between, reports, ⟨rfl, htakes⟩, hsecond, rfl⟩

theorem reads_u1_bind {second : UInt8 → Reader β} :
    (u1 >>= second).Reads input reports value rest ↔
      ∃ word between, input = Bytes.ofU1 word ++ between ∧
        (second word).Reads between reports value rest :=
  reads_bind_of_silent fun _ _ _ _ => reads_u1

theorem reads_u2_bind {second : UInt16 → Reader β} :
    (u2 >>= second).Reads input reports value rest ↔
      ∃ word between, input = Bytes.ofU2 word ++ between ∧
        (second word).Reads between reports value rest :=
  reads_bind_of_silent fun _ _ _ _ => reads_u2

theorem reads_u4_bind {second : UInt32 → Reader β} :
    (u4 >>= second).Reads input reports value rest ↔
      ∃ word between, input = Bytes.ofU4 word ++ between ∧
        (second word).Reads between reports value rest :=
  reads_bind_of_silent fun _ _ _ _ => reads_u4

theorem reads_bytes_bind {size : Nat} {second : Bytes → Reader β} :
    (bytes size >>= second).Reads input reports value rest ↔
      ∃ field between, (field.length = size ∧ input = field ++ between) ∧
        (second field).Reads between reports value rest :=
  reads_bind_of_silent fun _ _ _ _ => reads_bytes

theorem reads_fixed_bind {size : Nat}
    {second : { field : Bytes // field.length = size } → Reader β} :
    (fixed size >>= second).Reads input reports value rest ↔
      ∃ field between, input = field.val ++ between ∧
        (second field).Reads between reports value rest :=
  reads_bind_of_silent fun _ _ _ _ => reads_fixed

theorem reads_ofExcept_bind {result : Except Error α} :
    (ofExcept result >>= second).Reads input reports value rest ↔
      ∃ found, result = .ok found ∧ (second found).Reads input reports value rest := by
  rw [reads_bind_of_silent fun _ _ _ _ => reads_ofExcept]
  constructor
  · rintro ⟨found, _, ⟨hfound, rfl⟩, hsecond⟩
    exact ⟨found, hfound, hsecond⟩
  · rintro ⟨found, hfound, hsecond⟩
    exact ⟨found, input, ⟨hfound, rfl⟩, hsecond⟩

/-- What a reader reports about a string of bytes of its own comes before what follows. -/
theorem reads_within_bind {body : Bytes} {reader : Reader α} {second : α × Bytes → Reader β} :
    (within body reader >>= second).Reads input reports value rest ↔
      ∃ before found unused after, reader.Reads body before found unused ∧
        (second (found, unused)).Reads input after value rest ∧ reports = before ++ after := by
  simp only [reads_bind, reads_within]
  constructor
  · rintro ⟨before, ⟨found, unused⟩, _, after, ⟨hfound, rfl⟩, hsecond, rfl⟩
    exact ⟨before, found, unused, after, hfound, hsecond, rfl⟩
  · rintro ⟨before, found, unused, after, hfound, hsecond, rfl⟩
    exact ⟨before, (found, unused), input, after, ⟨hfound, rfl⟩, hsecond, rfl⟩

end Silent

/-! ## Repetition -/

theorem reads_times_zero {reader : Reader α} {values : List α} :
    (times 0 reader).Reads input reports values rest ↔
      reports = [] ∧ values = [] ∧ rest = input := by
  rw [times_zero, reads_pure]

/-- A repetition reads one entry and then the others. -/
theorem reads_times_succ {n : Nat} {reader : Reader α} {values : List α} :
    (times (n + 1) reader).Reads input reports values rest ↔
      ∃ before first between after others, reader.Reads input before first between ∧
        (times n reader).Reads between after others rest ∧ reports = before ++ after ∧
        values = first :: others := by
  rw [times_succ, reads_map₂]
  simp only [eq_comm (a := values)]

/-- What holds of every value that a reader yields holds of all values of a repetition. -/
theorem forall_of_reads_times {P : α → Prop} {n : Nat} {reader : Reader α} {values : List α}
    (hreader : ∀ ⦃input reports value rest⦄, reader.Reads input reports value rest → P value)
    (h : (times n reader).Reads input reports values rest) : ∀ value ∈ values, P value := by
  induction n generalizing input reports values with
  | zero =>
    obtain ⟨-, rfl, -⟩ := reads_times_zero.mp h
    exact List.forall_mem_nil P
  | succ n ih =>
    obtain ⟨_, first, between, _, others, hfirst, hothers, -, rfl⟩ := reads_times_succ.mp h
    exact List.forall_mem_cons.mpr ⟨hreader hfirst, ih hothers⟩

/-- What holds of every value that a reader yields without a report holds of all values of a
repetition without a report. -/
theorem forall_of_reads_times_silent {P : α → Prop} {n : Nat} {reader : Reader α}
    {values : List α}
    (hreader : ∀ ⦃input value rest⦄, reader.Reads input [] value rest → P value)
    (h : (times n reader).Reads input [] values rest) : ∀ value ∈ values, P value := by
  induction n generalizing input values with
  | zero =>
    obtain ⟨-, rfl, -⟩ := reads_times_zero.mp h
    exact List.forall_mem_nil P
  | succ n ih =>
    obtain ⟨before, first, between, after, others, hfirst, hothers, hnil, rfl⟩ :=
      reads_times_succ.mp h
    obtain ⟨rfl, rfl⟩ := List.append_eq_nil_iff.mp hnil.symm
    exact List.forall_mem_cons.mpr ⟨hreader hfirst, ih hothers⟩

/-- A repetition yields as many values as it has rounds. -/
theorem length_of_reads_times {n : Nat} {reader : Reader α} {values : List α}
    (h : (times n reader).Reads input reports values rest) : values.length = n := by
  induction n generalizing input reports values with
  | zero =>
    obtain ⟨-, rfl, -⟩ := reads_times_zero.mp h
    rfl
  | succ n ih =>
    obtain ⟨_, first, between, _, others, -, hothers, -, rfl⟩ := reads_times_succ.mp h
    rw [List.length_cons, ih hothers]

/-- If each of some entries is read from where it is written, all of them are read. -/
theorem reads_times_of_write {reader : Reader β} (make : α → β) {write : α → Except Error Bytes}
    {entries : List α} {bytes : Bytes}
    (h : ∀ entry ∈ entries, ∀ bytes rest, write entry = .ok bytes →
      reader.Reads (bytes ++ rest) [] (make entry) rest)
    (hwrite : writeAll write entries = .ok bytes) (rest : Bytes) :
    (times entries.length reader).Reads (bytes ++ rest) [] (entries.map make) rest := by
  induction entries generalizing bytes with
  | nil =>
    cases hwrite
    exact reads_times_zero.mpr ⟨rfl, rfl, rfl⟩
  | cons first others ih =>
    obtain ⟨head, tail, hhead, htail, rfl⟩ := writeAll_cons_eq_ok.mp hwrite
    obtain ⟨hfirst, hothers⟩ := List.forall_mem_cons.mp h
    -- The first entry is read in front of the others, which are read by induction.
    refine reads_times_succ.mpr ⟨[], make first, tail ++ rest, [], others.map make, ?_,
      ih hothers htail, rfl, rfl⟩
    rw [List.append_assoc]
    exact hfirst head (tail ++ rest) hhead

/-- A table is a count and so many entries. -/
theorem reads_table {entry : Reader α} {values : List α} :
    (table entry).Reads input reports values rest ↔
      ∃ count between, input = Bytes.ofU2 count ++ between ∧
        (times count.toNat entry).Reads between reports values rest := by
  simp only [table, reads_bind, reads_u2]
  constructor
  · rintro ⟨_, count, between, after, ⟨rfl, rfl⟩, hvalues, rfl⟩
    exact ⟨count, between, rfl, hvalues⟩
  · rintro ⟨count, between, rfl, hvalues⟩
    exact ⟨[], count, between, reports, ⟨rfl, rfl⟩, hvalues, rfl⟩

/-- A table without entries is its count. -/
theorem reads_table_nil {entry : Reader α} :
    (table entry).Reads (Bytes.ofU2 0 ++ rest) [] [] rest :=
  reads_table.mpr ⟨0, rest, rfl, reads_times_zero.mpr ⟨rfl, rfl, rfl⟩⟩

/-- A table of one entry is its count in front of the entry. -/
theorem reads_table_singleton {entry : Reader α} {value : α}
    (h : entry.Reads input reports value rest) :
    (table entry).Reads (Bytes.ofU2 1 ++ input) reports [value] rest := by
  refine reads_table.mpr ⟨1, input, rfl, reads_times_succ.mpr ?_⟩
  exact ⟨reports, value, rest, [], [], h, reads_times_zero.mpr ⟨rfl, rfl, rfl⟩, by simp, rfl⟩

/-- If each entry of a table is read from where it is written, the table is read. -/
theorem reads_table_of_write {what : String} {reader : Reader α} {write : α → Except Error Bytes}
    {entries : List α} {bytes : Bytes}
    (h : ∀ entry ∈ entries, ∀ bytes rest, write entry = .ok bytes →
      reader.Reads (bytes ++ rest) [] entry rest)
    (hwrite : writeTable what write entries = .ok bytes) (rest : Bytes) :
    (table reader).Reads (bytes ++ rest) [] entries rest := by
  obtain ⟨count, body, hcount, hbody, rfl⟩ := writeTable_eq_ok.mp hwrite
  refine reads_table.mpr ⟨count, body ++ rest, List.append_assoc .., ?_⟩
  have htimes := reads_times_of_write id h hbody rest
  rwa [List.map_id, ← hcount] at htimes

variable {σ : Type} {more : σ → Bytes → Bool} {step : σ → Reader σ} {state final : σ}

/-- A loop ends where its condition fails. -/
theorem reads_iterate_of_not {n : Nat} (h : more state input = false) :
    (iterate n more step state).Reads input reports final rest ↔
      reports = [] ∧ final = state ∧ rest = input := by
  cases n with
  | zero => rw [iterate_zero, reads_pure]
  | succ n =>
    rw [← reads_pure, Reads, Reads, iterate_succ, h]
    rfl

/-- A loop goes on where its condition holds. -/
theorem reads_iterate_of {n : Nat} (h : more state input = true) :
    (iterate (n + 1) more step state).Reads input reports final rest ↔
      ∃ before next between after, (step state).Reads input before next between ∧
        (iterate n more step next).Reads between after final rest ∧ reports = before ++ after := by
  rw [← reads_bind, Reads, Reads, iterate_succ, h]
  rfl

end Combinators

/-! ## Readers that invert writers -/

/-- A reader yields exactly the values of some kind whose bytes a writer puts at the front of the
input, leaves what stands behind them, and reports nothing. -/
def Inverts (reader : Reader α) (Canonical : α → Prop) (write : α → Except Error Bytes) : Prop :=
  ∀ input reports value rest, reader.Reads input reports value rest ↔
    reports = [] ∧ Canonical value ∧ ∃ bytes, write value = .ok bytes ∧ input = bytes ++ rest

namespace Inverts

variable {reader : Reader α} {Canonical : α → Prop} {write : α → Except Error Bytes}

/-- What follows a reader that inverts a writer reads on behind what was written. -/
theorem reads_bind (h : reader.Inverts Canonical write) {second : α → Reader β} {input : Bytes}
    {reports : List Diagnostic} {value : β} {rest : Bytes} :
    (reader >>= second).Reads input reports value rest ↔
      ∃ found between, (Canonical found ∧ ∃ bytes, write found = .ok bytes ∧
        input = bytes ++ between) ∧ (second found).Reads between reports value rest :=
  reads_bind_of_silent h

/-- What a repetition reads is written one after another. -/
theorem times (h : reader.Inverts Canonical write) (n : Nat) (input : Bytes)
    (reports : List Diagnostic) (values : List α) (rest : Bytes) :
    (times n reader).Reads input reports values rest ↔
      reports = [] ∧ values.length = n ∧ (∀ value ∈ values, Canonical value) ∧
        ∃ bytes, writeAll write values = .ok bytes ∧ input = bytes ++ rest := by
  induction n generalizing input reports values with
  | zero =>
    rw [reads_times_zero, List.length_eq_zero_iff]
    constructor
    · rintro ⟨rfl, rfl, rfl⟩
      simp
    · rintro ⟨rfl, rfl, -, bytes, hbytes, rfl⟩
      rw [writeAll_nil, Except.ok.injEq] at hbytes
      subst hbytes
      exact ⟨rfl, rfl, rfl⟩
  | succ n ih =>
    rw [reads_times_succ]
    constructor
    · rintro ⟨_, first, between, _, others, hfirst, hothers, rfl, rfl⟩
      -- What was read are the bytes of the first value, and by induction those of the others.
      obtain ⟨rfl, hcanonical, head, hhead, rfl⟩ := (h ..).mp hfirst
      obtain ⟨rfl, hlen, hall, tail, htail, rfl⟩ := (ih ..).mp hothers
      refine ⟨rfl, by rw [List.length_cons, hlen], List.forall_mem_cons.mpr ⟨hcanonical, hall⟩,
        head ++ tail, writeAll_cons_eq_ok.mpr ⟨head, tail, hhead, htail, rfl⟩, by simp⟩
    · rintro ⟨rfl, hlen, hall, bytes, hbytes, rfl⟩
      obtain ⟨first, others, rfl⟩ := List.exists_cons_of_length_eq_add_one hlen
      obtain ⟨head, tail, hhead, htail, rfl⟩ := writeAll_cons_eq_ok.mp hbytes
      obtain ⟨hfirst, hothers⟩ := List.forall_mem_cons.mp hall
      refine ⟨[], first, tail ++ rest, [], others, (h ..).mpr ?_, (ih ..).mpr ?_, rfl, rfl⟩
      · exact ⟨rfl, hfirst, head, hhead, by simp⟩
      · exact ⟨rfl, by simpa using hlen, hothers, tail, htail, rfl⟩

/-- A reader of tables inverts a writer of tables, whatever the writer calls their entries. -/
theorem table (h : reader.Inverts Canonical write) (what : String) :
    (Reader.table reader).Inverts (fun values => ∀ value ∈ values, Canonical value)
      (writeTable what write) := by
  intro input reports values rest
  simp only [reads_table, h.times, writeTable_eq_ok]
  constructor
  · rintro ⟨count, _, rfl, rfl, hlen, hall, body, hbody, rfl⟩
    exact ⟨rfl, hall, _, ⟨count, body, hlen.symm, hbody, rfl⟩, by simp⟩
  · rintro ⟨rfl, hall, _, ⟨count, body, hlen, hbody, rfl⟩, rfl⟩
    exact ⟨count, body ++ rest, by simp, rfl, hlen.symm, hall, body, hbody, rfl⟩

end Inverts

/-- A reader inverts a writer that refuses nothing if it reads what was written. -/
theorem inverts_ok {reader : Reader α} {Canonical : α → Prop} {toBytes : α → Bytes}
    (h : ∀ input reports value rest, reader.Reads input reports value rest ↔
      reports = [] ∧ Canonical value ∧ input = toBytes value ++ rest) :
    reader.Inverts Canonical fun value => .ok (toBytes value) := by
  intro input reports value rest
  simp [h]

end JavaClass.Reader
