import JavaClass.Proofs.Reading.Failing

/-!
# What readers may report, and how they may fail

Readers that are put together from others report what their parts report, one after the other, and
fail as one of them does. What is asked of the reports that go with a value, and of those that go
with an error, therefore holds of a whole reader as soon as it holds of its parts.

- `Reader.Conduct`: what is asked, so that parts of a read add up.
- `Reader.Conduct.silent`: nothing is reported, and only some errors occur.
- `Reader.Obeys`: a reader does what is asked.
- `Reader.Obeys.bind`, `Reader.Obeys.table` and others: one for each combinator.
-/

namespace JavaClass.Reader

variable {α β : Type}

/-- What is asked of the reports and the errors of readers. What is asked of two readers that run
one after the other is what is asked of each. -/
structure Conduct where
  /-- These reports may go with a value. -/
  Reported : List Diagnostic → Prop
  /-- On this input, these reports and this error may end a read. -/
  Failed : Bytes → List Diagnostic → Error → Prop
  /-- Nothing has to be reported. -/
  reported_nil : Reported []
  /-- Reports that go with values add up. -/
  reported_append : ∀ {before after}, Reported before → Reported after → Reported (before ++ after)
  /-- A read may end in a part of the input, behind reports that go with values. -/
  failed_append : ∀ {input part before after cause}, part <:+: input → Reported before →
    Failed part after cause → Failed input (before ++ after) cause
  /-- The input may be too short. -/
  failed_endOfInput : ∀ input ending, Failed input [] (.endOfInput ending)

/-- Nothing is reported, and only some errors occur. -/
def Conduct.silent (Allowed : Error → Prop) (h : ∀ ending, Allowed (.endOfInput ending)) :
    Conduct where
  Reported reports := reports = []
  Failed _ reports cause := reports = [] ∧ Allowed cause
  reported_nil := rfl
  reported_append := by
    rintro _ _ rfl rfl
    rfl
  failed_append := by
    rintro _ _ _ _ _ - rfl ⟨rfl, hcause⟩
    exact ⟨rfl, hcause⟩
  failed_endOfInput := fun _ ending => ⟨rfl, h ending⟩

/-- A reader reports what is allowed, fails as is allowed, and leaves the end of its input. -/
structure Obeys (conduct : Conduct) (reader : Reader α) : Prop where
  /-- What goes with a value is allowed to. -/
  reported : ∀ ⦃input reports value rest⦄, reader.Reads input reports value rest →
    conduct.Reported reports
  /-- What is left is the end of the input. -/
  suffix : ∀ ⦃input reports value rest⦄, reader.Reads input reports value rest → rest <:+ input
  /-- A read that ends with an error does so as is allowed. -/
  failed : ∀ ⦃input reports cause⦄, reader.Fails input reports cause →
    conduct.Failed input reports cause

variable {conduct : Conduct}

/-- A conduct that allows more is obeyed by the same readers. -/
theorem Obeys.mono {conduct' : Conduct} {reader : Reader α} (h : reader.Obeys conduct)
    (hreported : ∀ reports, conduct.Reported reports → conduct'.Reported reports)
    (hfailed : ∀ input reports cause, conduct.Failed input reports cause →
      conduct'.Failed input reports cause) : reader.Obeys conduct' where
  reported := fun _ reports _ _ hreads => hreported reports (h.reported hreads)
  suffix := h.suffix
  failed := fun input reports cause hfails => hfailed input reports cause (h.failed hfails)

/-! ## Readers that do not depend on their input -/

theorem obeys_pure (value : α) : (pure value : Reader α).Obeys conduct where
  reported := by
    intro input reports found rest h
    obtain ⟨rfl, -, -⟩ := reads_pure.mp h
    exact conduct.reported_nil
  suffix := by
    intro input reports found rest h
    obtain ⟨-, -, rfl⟩ := reads_pure.mp h
    exact List.suffix_rfl
  failed := fun _ _ _ h => absurd h fails_pure

theorem obeys_fail {cause : Error} (h : ∀ input, conduct.Failed input [] cause) :
    (fail cause : Reader α).Obeys conduct where
  reported := fun _ _ _ _ hreads => absurd hreads reads_fail
  suffix := fun _ _ _ _ hreads => absurd hreads reads_fail
  failed := by
    intro input reports found hfails
    obtain ⟨rfl, rfl⟩ := fails_fail.mp hfails
    exact h input

theorem obeys_ofExcept {result : Except Error α}
    (h : ∀ cause, result = .error cause → ∀ input, conduct.Failed input [] cause) :
    (ofExcept result).Obeys conduct := by
  cases result with
  | error cause => exact obeys_fail (h cause rfl)
  | ok value => exact obeys_pure value

/-! ## Words and bytes -/

/-- A reader obeys if it reads bytes off the front and reports nothing, or runs out of input. -/
theorem obeys_of_silent {reader : Reader α}
    (hreads : ∀ input reports value rest, reader.Reads input reports value rest →
      reports = [] ∧ rest <:+ input)
    (hfails : ∀ input reports cause, reader.Fails input reports cause →
      reports = [] ∧ ∃ ending, cause = .endOfInput ending) : reader.Obeys conduct where
  reported := by
    intro input reports value rest h
    obtain ⟨rfl, -⟩ := hreads _ _ _ _ h
    exact conduct.reported_nil
  suffix := fun input reports value rest h => (hreads _ _ _ _ h).2
  failed := by
    intro input reports cause h
    obtain ⟨rfl, ending, rfl⟩ := hfails _ _ _ h
    exact conduct.failed_endOfInput input ending

theorem obeys_u1 : u1.Obeys conduct := by
  refine obeys_of_silent (fun input reports value rest h => ?_) fun input reports cause h => ?_
  · obtain ⟨rfl, rfl⟩ := reads_u1.mp h
    exact ⟨rfl, List.suffix_append ..⟩
  · obtain ⟨-, rfl, rfl⟩ := fails_u1.mp h
    exact ⟨rfl, _, rfl⟩

theorem obeys_u2 : u2.Obeys conduct := by
  refine obeys_of_silent (fun input reports value rest h => ?_) fun input reports cause h => ?_
  · obtain ⟨rfl, rfl⟩ := reads_u2.mp h
    exact ⟨rfl, List.suffix_append ..⟩
  · obtain ⟨-, rfl, rfl⟩ := fails_u2.mp h
    exact ⟨rfl, _, rfl⟩

theorem obeys_u4 : u4.Obeys conduct := by
  refine obeys_of_silent (fun input reports value rest h => ?_) fun input reports cause h => ?_
  · obtain ⟨rfl, rfl⟩ := reads_u4.mp h
    exact ⟨rfl, List.suffix_append ..⟩
  · unfold Fails u4 at h
    split at h <;> cases h
    exact ⟨rfl, _, rfl⟩

theorem obeys_u8 : u8.Obeys conduct := by
  refine obeys_of_silent (fun input reports value rest h => ?_) fun input reports cause h => ?_
  · obtain ⟨rfl, rfl⟩ := reads_u8.mp h
    exact ⟨rfl, List.suffix_append ..⟩
  · unfold Fails u8 at h
    split at h <;> cases h
    exact ⟨rfl, _, rfl⟩

theorem obeys_bytes (size : Nat) : (bytes size).Obeys conduct := by
  refine obeys_of_silent (fun input reports value rest h => ?_) fun input reports cause h => ?_
  · obtain ⟨rfl, -, rfl⟩ := reads_bytes.mp h
    exact ⟨rfl, List.suffix_append ..⟩
  · unfold Fails bytes at h
    simp only at h
    split at h <;> cases h
    exact ⟨rfl, _, rfl⟩

theorem obeys_fixed (size : Nat) : (fixed size).Obeys conduct := by
  refine obeys_of_silent (fun input reports value rest h => ?_) fun input reports cause h => ?_
  · obtain ⟨rfl, rfl⟩ := reads_fixed.mp h
    exact ⟨rfl, List.suffix_append ..⟩
  · obtain ⟨-, rfl, rfl⟩ := fails_fixed.mp h
    exact ⟨rfl, _, rfl⟩

/-! ## One reader after another -/

namespace Obeys

variable {reader : Reader α}

/-- Two readers that obey do so one after the other. -/
theorem bind {first : Reader α} {second : α → Reader β} (hfirst : first.Obeys conduct)
    (hsecond : ∀ value, (second value).Obeys conduct) : (first >>= second).Obeys conduct where
  reported := by
    intro input reports value rest h
    obtain ⟨before, found, between, after, hbefore, hafter, rfl⟩ := reads_bind.mp h
    exact conduct.reported_append (hfirst.reported hbefore) ((hsecond found).reported hafter)
  suffix := by
    intro input reports value rest h
    obtain ⟨before, found, between, after, hbefore, hafter, rfl⟩ := reads_bind.mp h
    exact ((hsecond found).suffix hafter).trans (hfirst.suffix hbefore)
  failed := by
    intro input reports cause h
    obtain h | ⟨before, found, between, after, hbefore, hafter, rfl⟩ := fails_bind.mp h
    · exact hfirst.failed h
    · -- The second reader fails on what the first one left.
      exact conduct.failed_append (hfirst.suffix hbefore).isInfix (hfirst.reported hbefore)
        ((hsecond found).failed hafter)

/-- A changed value is read in the same way. -/
theorem map (h : reader.Obeys conduct) (make : α → β) :
    (do return make (← reader) : Reader β).Obeys conduct :=
  h.bind fun value => obeys_pure (make value)

/-! ## Repetition -/

theorem times (h : reader.Obeys conduct) (n : Nat) : (times n reader).Obeys conduct := by
  induction n with
  | zero => exact obeys_pure []
  | succ n ih =>
    rw [times_succ]
    exact h.bind fun value => ih.map (value :: ·)

theorem table (h : reader.Obeys conduct) : (table reader).Obeys conduct :=
  obeys_u2.bind fun count => h.times count.toNat

end Obeys

end JavaClass.Reader
