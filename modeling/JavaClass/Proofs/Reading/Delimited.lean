import JavaClass.Proofs.Reading.Failing

/-!
# Readers that know where they end

Most readers find the end of what they read in what they read, and not in the end of the input. On
every input they come to one of three ends: a value was read and all that follows is left, the input
is refused whatever follows, or more of it is needed. A reader that stops for the last reason has
reported no more than it would report if the input went on.

- `Reader.Settles`: the end that a reader comes to on an input, whatever stands behind it.
- `Reader.Delimited`: a reader that comes to such an end on every input.
- `Reader.Delimited.bind`, `Reader.Delimited.table` and others: one for each combinator.
- `Reader.Delimited.append`, `Reader.Delimited.cut`, `Reader.Delimited.append_error`: what a reader
  makes of an input that goes on, and of one that is cut off.
- `Reader.Delimited.exists_of_mem_table`: entries are read from places of the input.
- `Reader.AsksBeyond`: a reader asks for more bytes than there are, which is an error.
- `Reader.AgreeUpTo`: two readers do the same on inputs that are short enough.
-/

namespace JavaClass.Reader

variable {α β σ : Type}

/-- The end that a reader comes to on an input, whatever stands behind the input. -/
inductive Settles (reader : Reader α) : Bytes → Prop where
  /-- A value is read off the front, and all that follows is left. -/
  | value {reports : List Diagnostic} {value : α} (taken rest : Bytes)
    (h : ∀ more, reader.Reads (taken ++ more) reports value more) : Settles reader (taken ++ rest)
  /-- The input is refused, and so is every input that starts with it. -/
  | refused {input : Bytes} {reports : List Diagnostic} {cause : Error}
    (h : ∀ more, reader.Fails (input ++ more) reports cause) : Settles reader input
  /-- The input ends too early. What is reported so far is reported whatever follows. -/
  | cutOff {input : Bytes} {reports : List Diagnostic} {ending : EndOfInput}
    (hend : reader.Fails input reports (.endOfInput ending))
    (h : ∀ more, reports <+: (reader (input ++ more)).reports) : Settles reader input

/-- A reader that finds the end of what it reads in what it reads. -/
def Delimited (reader : Reader α) : Prop := ∀ input, reader.Settles input

/-- A reader that reports nothing before it runs out of input comes to an end there. -/
theorem Settles.of_silent {reader : Reader α} {input : Bytes} {ending : EndOfInput}
    (h : reader.Fails input [] (.endOfInput ending)) : reader.Settles input :=
  .cutOff h fun _ => List.nil_prefix

/-! ## Readers that do not depend on their input -/

theorem delimited_pure (value : α) : (pure value : Reader α).Delimited :=
  fun input => .value [] input fun _ => reads_pure.mpr ⟨rfl, rfl, rfl⟩

theorem delimited_fail (cause : Error) : (fail cause : Reader α).Delimited :=
  fun _ => .refused fun _ => rfl

theorem delimited_report (diagnostic : Diagnostic) : (report diagnostic).Delimited :=
  fun input => .value [] input fun _ => rfl

theorem delimited_ofExcept (result : Except Error α) : (ofExcept result).Delimited := by
  cases result with
  | error cause => exact delimited_fail cause
  | ok value => exact delimited_pure value

/-- A reader for a string of bytes of its own does not see the input, so it need not know where it
ends itself. -/
theorem delimited_within (body : Bytes) (reader : Reader α) : (within body reader).Delimited := by
  intro input
  obtain ⟨reports, value, unused, hreads⟩ | ⟨reports, cause, hfails⟩ := reads_or_fails reader body
  · have hread (more : Bytes) : (within body reader).Reads more reports (value, unused) more :=
      reads_within.mpr ⟨hreads, rfl⟩
    exact .value [] input hread
  · exact .refused fun _ => fails_within.mpr hfails

/-! ## Words and bytes -/

theorem delimited_u1 : u1.Delimited
  | [] => .of_silent rfl
  | byte :: rest => .value [byte] rest fun _ => rfl

theorem delimited_u2 : u2.Delimited
  | [] | [_] => .of_silent rfl
  | high :: low :: rest => .value [high, low] rest fun _ => rfl

theorem delimited_u4 : u4.Delimited
  | [] | [_] | [_, _] | [_, _, _] => .of_silent rfl
  | a :: b :: c :: d :: rest => .value [a, b, c, d] rest fun _ => rfl

theorem delimited_u8 : u8.Delimited
  | [] | [_] | [_, _] | [_, _, _] | [_, _, _, _] | [_, _, _, _, _] | [_, _, _, _, _, _]
  | [_, _, _, _, _, _, _] => .of_silent rfl
  | a :: b :: c :: d :: e :: f :: g :: h :: rest =>
    .value [a, b, c, d, e, f, g, h] rest fun _ => rfl

/-- A field of declared size is complete, or the input is too short for it. -/
theorem delimited_bytes (size : Nat) : (bytes size).Delimited := by
  intro input
  rcases Nat.lt_or_ge input.length size with hlt | hle
  · have hshort : (input.take size).length ≠ size := by rw [List.length_take]; omega
    exact .of_silent (if_neg hshort)
  · have hlen : (input.take size).length = size := List.length_take_of_le hle
    rw [← List.take_append_drop size input]
    exact .value _ _ fun more => reads_bytes.mpr ⟨rfl, hlen, rfl⟩

/-- A field whose size the format fixes is complete, or the input is too short for it. -/
theorem delimited_fixed (size : Nat) : (fixed size).Delimited := by
  intro input
  rcases Nat.lt_or_ge input.length size with hlt | hle
  · have hshort : (input.take size).length ≠ size := by rw [List.length_take]; omega
    exact .of_silent (dif_neg hshort)
  · have hlen : (input.take size).length = size := List.length_take_of_le hle
    have hread (more : Bytes) :
        (fixed size).Reads (input.take size ++ more) [] ⟨input.take size, hlen⟩ more :=
      reads_fixed.mpr ⟨rfl, rfl⟩
    rw [← List.take_append_drop size input]
    exact .value _ _ hread

/-! ## One reader after another -/

/-- Behind a value that is read off the front, the second reader reports what it has to. -/
theorem Reads.reports_bind {first : Reader α} {second : α → Reader β} {input rest : Bytes}
    {reports : List Diagnostic} {value : α} (h : first.Reads input reports value rest) :
    ((first >>= second) input).reports = reports ++ (second value rest).reports := by
  rw [Reads] at h
  rw [bind_apply, h]

/-- What the first reader reports comes first. -/
theorem reports_prefix_bind (first : Reader α) (second : α → Reader β) (input : Bytes) :
    (first input).reports <+: ((first >>= second) input).reports := by
  rw [bind_apply]
  rcases first input with ⟨reports, _ | ⟨value, rest⟩⟩
  · exact List.prefix_rfl
  · exact List.prefix_append ..

namespace Delimited

variable {reader : Reader α} {first : Reader α} {second : α → Reader β}

/-- Two readers that know where they end know it together. -/
theorem bind (hfirst : first.Delimited) (hsecond : ∀ value, (second value).Delimited) :
    (first >>= second).Delimited := by
  intro input
  cases hfirst input with
  | refused h => exact .refused fun more => fails_bind.mpr (.inl (h more))
  | cutOff hend h =>
    exact .cutOff (fails_bind.mpr (.inl hend)) fun more => (h more).trans (reports_prefix_bind ..)
  | @value reports value taken rest h =>
    -- The second reader settles what happens on what the first one left.
    cases hsecond value rest with
    | value taken' rest h' =>
      have hread (more : Bytes) := reads_bind.mpr ⟨_, _, _, _, h _, h' more, rfl⟩
      simp only [← List.append_assoc] at hread ⊢
      exact .value _ rest hread
    | refused h' =>
      have hrefused (more : Bytes) := fails_bind.mpr (.inr ⟨_, _, _, _, h _, h' more, rfl⟩)
      simp only [← List.append_assoc] at hrefused
      exact .refused hrefused
    | cutOff hend h' =>
      -- What the first reader reports is the same for all inputs that go on.
      refine .cutOff (fails_bind.mpr (.inr ⟨_, _, _, _, h rest, hend, rfl⟩)) fun more => ?_
      rw [List.append_assoc, (h _).reports_bind]
      exact (List.prefix_append_right_inj reports).mpr (h' more)

/-- A changed value has the same end. -/
theorem map (h : reader.Delimited) (make : α → β) :
    (do return make (← reader) : Reader β).Delimited :=
  h.bind fun value => delimited_pure (make value)

/-! ## Repetition -/

/-- The number of rounds says where a repetition ends. -/
theorem times (h : reader.Delimited) (n : Nat) : (times n reader).Delimited := by
  induction n with
  | zero => exact delimited_pure []
  | succ n ih =>
    rw [times_succ]
    exact h.bind fun value => ih.map (value :: ·)

/-- The count in front of a table says where it ends. -/
theorem table (h : reader.Delimited) : (table reader).Delimited :=
  delimited_u2.bind fun count => h.times count.toNat

/-- A loop knows where it ends if its condition is one on the state alone. -/
theorem iterate {more : σ → Bool} {step : σ → Reader σ} (h : ∀ state, (step state).Delimited)
    (n : Nat) (state : σ) : (iterate n (fun state _ => more state) step state).Delimited := by
  induction n generalizing state with
  | zero => exact delimited_pure state
  | succ n ih =>
    -- The condition does not depend on the input, so the loop takes a step on all or on none.
    have hloop : Reader.iterate (n + 1) (fun state _ => more state) step state =
        if more state then step state >>= Reader.iterate n (fun state _ => more state) step
        else pure state := by
      funext input
      rw [iterate_succ]
      split <;> rfl
    rw [hloop]
    split
    · exact (h state).bind ih
    · exact delimited_pure state

/-! ## Inputs that go on, and inputs that are cut off -/

variable {input rest : Bytes} {reports : List Diagnostic} {value : α}

/-- What is read off the front is a part of the input that alone decides what is read. -/
theorem exists_taken (h : reader.Delimited) (hreads : reader.Reads input reports value rest) :
    ∃ taken, input = taken ++ rest ∧ ∀ more, reader.Reads (taken ++ more) reports value more := by
  cases h input with
  | value taken rest' h' =>
    obtain ⟨rfl, rfl, rfl⟩ := hreads.unique (h' rest')
    exact ⟨taken, rfl, h'⟩
  | refused h' =>
    have hfails := h' []
    rw [List.append_nil] at hfails
    exact absurd hfails hreads.not_fails
  | cutOff hend _ => exact absurd hend hreads.not_fails

/-- If the input goes on, the same value is read, and more is left. -/
theorem append (h : reader.Delimited) (hreads : reader.Reads input reports value rest)
    (more : Bytes) : reader.Reads (input ++ more) reports value (rest ++ more) := by
  obtain ⟨taken, rfl, htaken⟩ := h.exists_taken hreads
  rw [List.append_assoc]
  exact htaken (rest ++ more)

/-- An input that is cut off inside what is read from it, so that more is missing than is left at
its end, ends too early, and nothing is reported that would not be reported without the cut. -/
theorem cut (h : reader.Delimited) {front behind : Bytes}
    (hreads : reader.Reads (front ++ behind) reports value rest)
    (hlt : rest.length < behind.length) :
    ∃ before ending, before <+: reports ∧ reader.Fails front before (.endOfInput ending) := by
  cases h front with
  | value taken rest' h' =>
    -- All that was cut off would be left, and that is too much.
    rw [List.append_assoc] at hreads
    obtain ⟨-, -, rfl⟩ := hreads.unique (h' (rest' ++ behind))
    rw [List.length_append] at hlt
    omega
  | refused h' => exact absurd (h' behind) hreads.not_fails
  | cutOff hend h' =>
    have hprefix := h' behind
    rw [Reads] at hreads
    rw [hreads] at hprefix
    exact ⟨_, _, hprefix, hend⟩

/-- An input that is refused for another reason than that it ends is refused however it goes on. -/
theorem append_error (h : reader.Delimited) {cause : Error}
    (hcause : ∀ ending, cause ≠ .endOfInput ending) (herror : reader.Fails input reports cause)
    (more : Bytes) : reader.Fails (input ++ more) reports cause := by
  cases h input with
  | value taken rest h' => exact absurd herror (h' rest).not_fails
  | refused h' =>
    have hfails := h' []
    rw [List.append_nil] at hfails
    obtain ⟨rfl, rfl⟩ := herror.unique hfails
    exact h' more
  | cutOff hend _ =>
    obtain ⟨-, rfl⟩ := herror.unique hend
    exact absurd rfl (hcause _)

/-- What a reader leaves is the end of its input. -/
theorem suffix (h : reader.Delimited) (hreads : reader.Reads input reports value rest) :
    rest <:+ input := by
  obtain ⟨taken, rfl, -⟩ := h.exists_taken hreads
  exact List.suffix_append taken rest

/-- Every value of a repetition is read from some place of the input on. -/
theorem exists_of_mem_times (h : reader.Delimited) {n : Nat} {values : List α}
    (hreads : (Reader.times n reader).Reads input reports values rest) (hmem : value ∈ values) :
    ∃ start before after, start <:+ input ∧ reader.Reads start before value after := by
  induction n generalizing input reports values with
  | zero =>
    obtain ⟨-, rfl, -⟩ := reads_times_zero.mp hreads
    exact absurd hmem List.not_mem_nil
  | succ n ih =>
    obtain ⟨before, first, between, after, others, hfirst, hothers, -, rfl⟩ :=
      reads_times_succ.mp hreads
    rcases List.mem_cons.mp hmem with rfl | hmem
    · exact ⟨input, before, between, List.suffix_rfl, hfirst⟩
    · obtain ⟨start, before, after, hstart, hvalue⟩ := ih hothers hmem
      exact ⟨start, before, after, hstart.trans (h.suffix hfirst), hvalue⟩

/-- Every entry of a table is read from some place of the input on. -/
theorem exists_of_mem_table (h : reader.Delimited) {values : List α}
    (hreads : (Reader.table reader).Reads input reports values rest) (hmem : value ∈ values) :
    ∃ start before after, start <:+ input ∧ reader.Reads start before value after := by
  obtain ⟨count, between, rfl, hvalues⟩ := reads_table.mp hreads
  obtain ⟨start, before, after, hstart, hvalue⟩ := h.exists_of_mem_times hvalues hmem
  exact ⟨start, before, after, hstart.trans (List.suffix_append ..), hvalue⟩

end Delimited

/-! ## Bytes behind the input -/

/-- What was made of an input, with more bytes behind what is left of it. -/
def followedBy (reading : Reading α) (more : Bytes) : Reading α :=
  ⟨reading.reports, reading.outcome.map fun (value, rest) => (value, rest ++ more)⟩

/-- A reader asks for more bytes than an input has: if the input goes on, it can do something else
than to leave what is added. -/
def AsksBeyond (reader : Reader α) (input : Bytes) : Prop :=
  ∃ more, reader (input ++ more) ≠ followedBy (reader input) more

/-- A reader that asks for more bytes than there are fails because there are no more. -/
theorem Delimited.fails_of_asksBeyond {reader : Reader α} (h : reader.Delimited) {input : Bytes}
    (hasks : reader.AsksBeyond input) :
    ∃ reports ending, reader.Fails input reports (.endOfInput ending) := by
  obtain ⟨more, hne⟩ := hasks
  obtain ⟨reports, value, rest, hreads⟩ | ⟨reports, cause, hfails⟩ := reads_or_fails reader input
  · have happend := h.append hreads more
    rw [Reads] at happend hreads
    rw [happend, hreads] at hne
    exact absurd rfl hne
  · refine ⟨reports, ?_⟩
    -- For any other cause it would fail whatever follows.
    by_contra! hcause
    have happend := h.append_error (fun ending heq => hcause ending (heq ▸ hfails)) hfails more
    rw [Fails] at happend hfails
    rw [happend, hfails] at hne
    exact absurd rfl hne

/-! ## Readers that agree on short inputs

A reader that runs another one on a part of its input does not depend on what the other one makes of
longer inputs. -/

/-- Where the first reader succeeds, it does not matter which of two readers follows if they agree
on what it left. -/
theorem bind_congr_of_reads {first : Reader α} {second second' : α → Reader β} {input : Bytes}
    (h : ∀ reports value rest, first.Reads input reports value rest →
      second value rest = second' value rest) :
    (first >>= second) input = (first >>= second') input := by
  rw [bind_apply, bind_apply]
  rcases hfirst : first input with ⟨reports, _ | ⟨value, rest⟩⟩
  · rfl
  · simp only [h reports value rest hfirst]

/-- In a repetition it only matters what a reader does at the places that the repetition comes
to. -/
theorem times_congr_of_reads {reader reader' : Reader α} {input : Bytes} {n : Nat}
    (h : ∀ k < n, ∀ reports values start, (times k reader).Reads input reports values start →
      reader' start = reader start) :
    times n reader' input = times n reader input := by
  induction n generalizing input with
  | zero => rfl
  | succ n ih =>
    have hfirst : reader' input = reader input :=
      h 0 (Nat.succ_pos n) [] [] input (reads_times_zero.mpr ⟨rfl, rfl, rfl⟩)
    rw [times_succ, times_succ, bind_apply, hfirst, ← bind_apply]
    refine bind_congr_of_reads fun before value between hvalue => ?_
    -- What is reached from behind the first entry is reached in one round more.
    have hothers : times n reader' between = times n reader between := by
      refine ih fun k hk after values start hreads => ?_
      exact h (k + 1) (Nat.succ_lt_succ hk) (before ++ after) (value :: values) start
        (reads_times_succ.mpr ⟨before, value, between, after, values, hvalue, hreads, rfl, rfl⟩)
    rw [bind_apply, bind_apply, hothers]

/-- A reader for a string of bytes of its own can be replaced by one that agrees with it there. -/
theorem within_congr {body : Bytes} {reader reader' : Reader α} (h : reader body = reader' body) :
    within body reader = within body reader' := by
  funext input
  rw [within, within, h]

/-- Two readers do the same on all inputs of no more than so many bytes. -/
def AgreeUpTo (n : Nat) (reader reader' : Reader α) : Prop :=
  ∀ input, input.length ≤ n → reader input = reader' input

namespace AgreeUpTo

variable {n : Nat} {reader reader' reader'' : Reader α}

theorem refl (n : Nat) (reader : Reader α) : AgreeUpTo n reader reader := fun _ _ => rfl

theorem trans (h : AgreeUpTo n reader reader') (h' : AgreeUpTo n reader' reader'') :
    AgreeUpTo n reader reader'' :=
  fun input hlen => (h input hlen).trans (h' input hlen)

/-- Readers that agree can be followed by the same reader. -/
theorem bind (h : AgreeUpTo n reader reader') (second : α → Reader β) :
    AgreeUpTo n (reader >>= second) (reader' >>= second) := by
  intro input hlen
  rw [bind_apply, bind_apply, h input hlen]

/-- A reader that knows where it ends leaves no more than it is given, so readers that agree can
follow it. -/
theorem bind_right {first : Reader β} {second second' : β → Reader α} (hfirst : first.Delimited)
    (h : ∀ value, AgreeUpTo n (second value) (second' value)) :
    AgreeUpTo n (first >>= second) (first >>= second') := by
  intro input hlen
  exact bind_congr_of_reads fun reports value rest hreads =>
    h value rest (Nat.le_trans (hfirst.suffix hreads).length_le hlen)

/-- Repetitions of readers that agree do. -/
theorem times (h : AgreeUpTo n reader reader') (hreader : reader.Delimited) (rounds : Nat) :
    AgreeUpTo n (times rounds reader) (times rounds reader') := by
  induction rounds with
  | zero => exact refl n _
  | succ rounds ih =>
    rw [times_succ, times_succ]
    exact (bind_right hreader fun value => ih.bind _).trans (h.bind _)

/-- Tables of entries whose readers agree are read alike. -/
theorem table (h : AgreeUpTo n reader reader') (hreader : reader.Delimited) :
    AgreeUpTo n (table reader) (table reader') :=
  bind_right delimited_u2 fun count => h.times hreader count.toNat

end AgreeUpTo

end JavaClass.Reader
