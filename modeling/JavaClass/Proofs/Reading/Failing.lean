import JavaClass.Proofs.Reading

/-!
# How readers fail

When a reader fails, on what input, with what cause, and what it reported before. As for what
readers yield, every combinator has one equivalence.

- `Reader.Fails`: a reader fails for a cause and reports something before.
- `Reader.reads_or_fails`: on every input a reader yields something or fails.
- `Reader.fails_bind`, `Reader.fails_u1`, `Reader.fails_fixed` and others: one for each combinator.
- `Reader.exists_fails_times`: a failure somewhere in a repetition is one of the repetition.
-/

namespace JavaClass.Reader

variable {α β σ : Type}

/-- On an input, a reader fails, and reports something before. -/
def Fails (reader : Reader α) (input : Bytes) (reports : List Diagnostic) (cause : Error) : Prop :=
  reader input = ⟨reports, .error cause⟩

/-- On every input a reader yields something or fails. -/
theorem reads_or_fails (reader : Reader α) (input : Bytes) :
    (∃ reports value rest, reader.Reads input reports value rest) ∨
      ∃ reports cause, reader.Fails input reports cause := by
  rcases h : reader input with ⟨reports, cause | ⟨value, rest⟩⟩
  · exact .inr ⟨reports, cause, h⟩
  · exact .inl ⟨reports, value, rest, h⟩

variable {input : Bytes} {reports : List Diagnostic} {cause : Error}

/-- A reader that yields something does not fail. -/
theorem Reads.not_fails {reader : Reader α} {before : List Diagnostic} {value : α} {rest : Bytes}
    (h : reader.Reads input before value rest) : ¬ reader.Fails input reports cause := by
  intro hfails
  rw [Reads] at h
  rw [Fails, h] at hfails
  cases hfails

/-- A reader fails for one cause on an input. -/
theorem Fails.unique {reader : Reader α} {reports' : List Diagnostic} {cause' : Error}
    (h : reader.Fails input reports cause) (h' : reader.Fails input reports' cause') :
    reports = reports' ∧ cause = cause' := by
  have heq := Eq.trans h.symm h'
  simpa only [Reading.mk.injEq, Except.error.injEq] using heq

@[simp]
theorem fails_pure {value : α} : ¬ (pure value : Reader α).Fails input reports cause := by
  simp [Fails]

@[simp]
theorem fails_fail {found : Error} :
    (fail found : Reader α).Fails input reports cause ↔ reports = [] ∧ cause = found := by
  simp [Fails, fail, eq_comm]

@[simp]
theorem fails_report {diagnostic : Diagnostic} :
    ¬ (report diagnostic).Fails input reports cause := by
  simp [Fails, report]

/-- Of two readers one after the other, the first one fails, or the second one on what is left. -/
theorem fails_bind {first : Reader α} {second : α → Reader β} :
    (first >>= second).Fails input reports cause ↔
      first.Fails input reports cause ∨
        ∃ before found between after, first.Reads input before found between ∧
          (second found).Fails between after cause ∧ reports = before ++ after := by
  simp only [Fails, Reads, bind_apply]
  rcases first input with ⟨before, _ | ⟨found, between⟩⟩
  · simp
  · simp only [Reading.mk.injEq, Except.ok.injEq, Prod.mk.injEq, reduceCtorEq, and_false, false_or]
    constructor
    · rintro ⟨hreports, houtcome⟩
      exact ⟨before, found, between, _, ⟨rfl, rfl, rfl⟩, ext_reading rfl houtcome, hreports.symm⟩
    · rintro ⟨_, _, _, after, ⟨rfl, rfl, rfl⟩, hafter, rfl⟩
      simp [hafter]

/-- A changed value is not read where the value is not. -/
theorem fails_map {reader : Reader α} {make : α → β} :
    (do return make (← reader) : Reader β).Fails input reports cause ↔
      reader.Fails input reports cause := by
  simp only [fails_bind, fails_pure, false_and, and_false, exists_false, or_false]

@[simp]
theorem fails_u1 :
    u1.Fails input reports cause ↔ input = [] ∧ reports = [] ∧ cause = .endOfInput .fixed := by
  cases input <;> simp [Fails, u1, eq_comm]

@[simp]
theorem fails_u2 :
    u2.Fails input reports cause ↔
      input.length < 2 ∧ reports = [] ∧ cause = .endOfInput .fixed := by
  rcases input with - | ⟨high, - | ⟨low, rest⟩⟩
  · simp [Fails, u2, eq_comm]
  · simp [Fails, u2, eq_comm]
  · have hle : ¬ rest.length + 1 + 1 < 2 := by omega
    simp [Fails, u2, hle]

/-- A field whose size the format fixes is not read where there are fewer bytes. -/
@[simp]
theorem fails_fixed {size : Nat} :
    (fixed size).Fails input reports cause ↔
      input.length < size ∧ reports = [] ∧ cause = .endOfInput .fixed := by
  unfold Fails fixed
  simp only [List.length_take]
  split
  · next h =>
    refine ⟨fun h' => by simp at h', ?_⟩
    rintro ⟨hlt, -, -⟩
    omega
  · next h =>
    have hlt : input.length < size := by omega
    simp [hlt, eq_comm]

/-- A reader for a string of bytes of its own fails on these bytes, whatever the input is. -/
@[simp]
theorem fails_within {body : Bytes} {reader : Reader α} :
    (within body reader).Fails input reports cause ↔ reader.Fails body reports cause := by
  unfold Fails within
  rcases reader body with ⟨found, _ | ⟨_, _⟩⟩ <;> simp

/-! ## Repetition -/

/-- A repetition fails where its first round does, or behind this where the others do. -/
theorem fails_times_succ {n : Nat} {reader : Reader α} :
    (times (n + 1) reader).Fails input reports cause ↔
      reader.Fails input reports cause ∨
        ∃ before first between after, reader.Reads input before first between ∧
          (times n reader).Fails between after cause ∧ reports = before ++ after := by
  rw [times_succ, fails_bind]
  simp only [fails_map]

/-- If a reader does the same as another one wherever it does not fail for a cause, and fails for
this cause at a place that a repetition of the other one comes to, then repetitions of it do. -/
theorem exists_fails_times {reader reader' : Reader α} {start : Bytes} {values : List α} {k n : Nat}
    (h : ∀ place, reader' place = reader place ∨ ∃ reports, reader'.Fails place reports cause)
    (hlt : k < n) (hreads : (times k reader).Reads input reports values start)
    (hfails : ∃ reports, reader'.Fails start reports cause) :
    ∃ reports, (times n reader').Fails input reports cause := by
  -- By induction on the rounds before the place. One of them may fail for the cause already.
  induction k generalizing n input reports values with
  | zero =>
    obtain ⟨m, rfl⟩ := Nat.exists_eq_add_of_lt hlt
    obtain ⟨-, -, rfl⟩ := reads_times_zero.mp hreads
    obtain ⟨reports, hfails⟩ := hfails
    exact ⟨reports, fails_times_succ.mpr (.inl hfails)⟩
  | succ k ih =>
    obtain ⟨m, rfl⟩ := Nat.exists_eq_add_of_lt hlt
    obtain ⟨before, value, between, after, others, hvalue, hothers, -, -⟩ :=
      reads_times_succ.mp hreads
    rcases h input with hsame | ⟨reports, hfirst⟩
    · obtain ⟨reports, hrest⟩ := ih (Nat.lt_of_succ_lt_succ hlt) hothers
      rw [Reads, ← hsame] at hvalue
      exact ⟨before ++ reports,
        fails_times_succ.mpr (.inr ⟨before, value, between, reports, hvalue, hrest, rfl⟩)⟩
    · exact ⟨reports, fails_times_succ.mpr (.inl hfirst)⟩

variable {more : σ → Bytes → Bool} {step : σ → Reader σ} {state : σ}

/-- A loop does not fail where its condition does. -/
theorem fails_iterate_of_not {n : Nat} (h : more state input = false) :
    ¬ (iterate n more step state).Fails input reports cause := by
  have hreads : (iterate n more step state).Reads input [] state input :=
    (reads_iterate_of_not h).mpr ⟨rfl, rfl, rfl⟩
  exact hreads.not_fails

/-- Where the condition of a loop holds, its step fails, or the loop does after it. -/
theorem fails_iterate_of {n : Nat} (h : more state input = true) :
    (iterate (n + 1) more step state).Fails input reports cause ↔
      (step state).Fails input reports cause ∨
        ∃ before next between after, (step state).Reads input before next between ∧
          (iterate n more step next).Fails between after cause ∧ reports = before ++ after := by
  rw [← fails_bind, Fails, Fails, iterate_succ, h]
  rfl

end JavaClass.Reader
