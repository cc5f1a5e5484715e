import JavaClass.Diagnostic
import JavaClass.Error
import JavaClass.Text.ModifiedUtf8

/-!
# Readers

A reader takes a value off the front of a string of bytes. It yields the value and the bytes it
left, or the error that stopped it, and in both cases what it had to report, in order.

- `Reader.u1`, `Reader.u2`, `Reader.u4`, `Reader.u8`: big-endian words.
- `Reader.bytes`: as many bytes as were declared.
- `Reader.times`, `Reader.table`: repetition.
- `Reader.iterate`: repetition as long as a condition holds.
- `Reader.within`: a reader of its own for a string of bytes that was read before.

Repetitions hold their reports and values last first while they run. `Reader.times_succ` and
`Reader.iterate_succ` say that they read one entry or take one step and then go on.
-/

namespace JavaClass

/-- What a reader made of its input. -/
structure Reading (α : Type) where
  /-- What was reported, in order. -/
  reports : List Diagnostic
  /-- The value and the bytes that are left, or why there is none. -/
  outcome : Except Error (α × Bytes)

/-- A reader takes a value off the front of a string of bytes. -/
def Reader (α : Type) : Type := Bytes → Reading α

namespace Reader

variable {α β σ : Type}

/-- Runs a reader on a string of bytes. -/
def run (reader : Reader α) (input : Bytes) : Reading α := reader input

/-- Yields a value without reading. -/
protected def pure (value : α) : Reader α := fun input => ⟨[], .ok (value, input)⟩

/-- Runs a second reader, which may depend on the value of the first, on what the first left. -/
protected def bind (first : Reader α) (second : α → Reader β) : Reader β := fun input =>
  match first input with
  | ⟨reports, .error cause⟩ => ⟨reports, .error cause⟩
  | ⟨reports, .ok (value, rest)⟩ =>
    let reading := second value rest
    -- Reports of the first reader stay even if the second one fails.
    ⟨reports ++ reading.reports, reading.outcome⟩

instance : Monad Reader where
  pure := Reader.pure
  bind := Reader.bind

/-- Fails. -/
def fail (cause : Error) : Reader α := fun _ => ⟨[], .error cause⟩

/-- Reports something. -/
def report (diagnostic : Diagnostic) : Reader Unit := fun input => ⟨[diagnostic], .ok ((), input)⟩

/-- Yields the value of a computation that does not read, or fails as it does. -/
def ofExcept : Except Error α → Reader α
  | .ok value => Reader.pure value
  | .error cause => fail cause

/-! ## Words and bytes -/

/-- Reads one byte. -/
def u1 : Reader UInt8
  | [] => ⟨[], .error (.endOfInput .fixed)⟩
  | byte :: rest => ⟨[], .ok (byte, rest)⟩

/-- Reads an unsigned number of two bytes, the higher one first. -/
def u2 : Reader UInt16
  | high :: low :: rest => ⟨[], .ok (UInt16.ofNat (high.toNat * 0x100 + low.toNat), rest)⟩
  | _ => ⟨[], .error (.endOfInput .fixed)⟩

/-- Reads an unsigned number of four bytes, the highest one first. -/
def u4 : Reader UInt32
  | a :: b :: c :: d :: rest =>
    let value := ((a.toNat * 0x100 + b.toNat) * 0x100 + c.toNat) * 0x100 + d.toNat
    ⟨[], .ok (UInt32.ofNat value, rest)⟩
  | _ => ⟨[], .error (.endOfInput .fixed)⟩

/-- Reads an unsigned number of eight bytes, the highest one first. -/
def u8 : Reader UInt64
  | a :: b :: c :: d :: e :: f :: g :: h :: rest =>
    let high := ((a.toNat * 0x100 + b.toNat) * 0x100 + c.toNat) * 0x100 + d.toNat
    let low := ((e.toNat * 0x100 + f.toNat) * 0x100 + g.toNat) * 0x100 + h.toNat
    ⟨[], .ok (UInt64.ofNat (high * 0x100000000 + low), rest)⟩
  | _ => ⟨[], .error (.endOfInput .fixed)⟩

/-- Reads a field whose size the format fixes. -/
def fixed (size : Nat) : Reader { field : Bytes // field.length = size } := fun input =>
  let field := input.take size
  if h : field.length = size then ⟨[], .ok (⟨field, h⟩, input.drop size)⟩
  else ⟨[], .error (.endOfInput .fixed)⟩

/-- Reads as many bytes as were declared. -/
def bytes (size : Nat) : Reader Bytes := fun input =>
  let field := input.take size
  if field.length = size then ⟨[], .ok (field, input.drop size)⟩
  else ⟨[], .error (.endOfInput (.declared size field.length))⟩

/-- Runs a reader on a string of bytes of its own, and yields its value and what it left of them. -/
def within (body : Bytes) (reader : Reader α) : Reader (α × Bytes) := fun input =>
  match reader body with
  | ⟨reports, .error cause⟩ => ⟨reports, .error cause⟩
  | ⟨reports, .ok (value, unused)⟩ => ⟨reports, .ok ((value, unused), input)⟩

/-! ## Repetition -/

/-- Goes on with a repetition, of which the values and the reports so far are held last first. -/
def timesOnto (reader : Reader α) (values : List α) (reports : List Diagnostic) :
    Nat → Reader (List α)
  | 0, input => ⟨reports.reverse, .ok (values.reverse, input)⟩
  | n + 1, input =>
    match reader input with
    | ⟨more, .error cause⟩ => ⟨reports.reverseAux more, .error cause⟩
    | ⟨more, .ok (value, rest)⟩ =>
      timesOnto reader (value :: values) (more.reverseAux reports) n rest

/-- Runs a reader so many times. -/
def times (n : Nat) (reader : Reader α) : Reader (List α) := timesOnto reader [] [] n

/-- Reads a count of two bytes and then so many entries. -/
def table (entry : Reader α) : Reader (List α) := do
  times (← u2).toNat entry

/-- Goes on with a loop, of which the reports so far are held last first. -/
def iterateOnto (more : σ → Bytes → Bool) (step : σ → Reader σ) (reports : List Diagnostic) :
    Nat → σ → Reader σ
  | 0, state, input => ⟨reports.reverse, .ok (state, input)⟩
  | n + 1, state, input =>
    if more state input then
      match step state input with
      | ⟨new, .error cause⟩ => ⟨reports.reverseAux new, .error cause⟩
      | ⟨new, .ok (next, rest)⟩ => iterateOnto more step (new.reverseAux reports) n next rest
    else ⟨reports.reverse, .ok (state, input)⟩

/-- Repeats a step from a state as long as `more` holds of the state and of the bytes that are left,
but no more than `bound` times. -/
def iterate (bound : Nat) (more : σ → Bytes → Bool) (step : σ → Reader σ) (state : σ) : Reader σ :=
  iterateOnto more step [] bound state

/-! ## Equations -/

@[simp]
theorem pure_apply (value : α) (input : Bytes) :
    (pure value : Reader α) input = ⟨[], .ok (value, input)⟩ := rfl

theorem bind_apply (first : Reader α) (second : α → Reader β) (input : Bytes) :
    (first >>= second) input =
      match first input with
      | ⟨reports, .error cause⟩ => ⟨reports, .error cause⟩
      | ⟨reports, .ok (value, rest)⟩ =>
        ⟨reports ++ (second value rest).reports, (second value rest).outcome⟩ := rfl

/-- Readings with equal parts are equal. -/
@[ext]
theorem ext_reading {first second : Reading α} (hreports : first.reports = second.reports)
    (houtcome : first.outcome = second.outcome) : first = second := by
  cases first; cases second; simp_all

/-- How readers that run one after another are grouped does not matter. -/
instance : LawfulMonad Reader := LawfulMonad.mk' Reader
  (fun reader => by
    funext input
    change (reader >>= pure) input = _
    rw [bind_apply]
    rcases reader input with ⟨reports, _ | ⟨value, rest⟩⟩ <;> simp)
  (fun value next => by
    funext input
    simp [bind_apply])
  (fun first second third => by
    funext input
    simp only [bind_apply]
    rcases first input with ⟨reports, _ | ⟨value, rest⟩⟩
    · rfl
    · rcases h : second value rest with ⟨more, _ | ⟨value, rest⟩⟩ <;> simp [h])

/-- What was held back of a repetition stands in front of what it still reads. -/
theorem timesOnto_eq (reader : Reader α) (values : List α) (reports : List Diagnostic) (n : Nat)
    (input : Bytes) :
    timesOnto reader values reports n input =
      ⟨reports.reverse ++ (times n reader input).reports,
        (times n reader input).outcome.map fun (more, rest) => (values.reverse ++ more, rest)⟩ := by
  induction n generalizing values reports input with
  | zero => simp [timesOnto, times, Except.map]
  | succ n ih =>
    simp only [timesOnto, times]
    split
    · next h => simp [List.reverseAux_eq, Except.map]
    · next more value rest h =>
      -- Both sides go on from the same input, with the value and its reports held back.
      rw [ih, ih [value]]
      cases (times n reader rest).outcome <;>
        simp [List.reverseAux_eq, List.append_assoc, Except.map]

/-- The reports that were held back of a loop stand in front of those still to come. -/
theorem iterateOnto_eq (more : σ → Bytes → Bool) (step : σ → Reader σ)
    (reports : List Diagnostic) (n : Nat) (state : σ) (input : Bytes) :
    iterateOnto more step reports n state input =
      ⟨reports.reverse ++ (iterate n more step state input).reports,
        (iterate n more step state input).outcome⟩ := by
  induction n generalizing reports state input with
  | zero => simp [iterateOnto, iterate]
  | succ n ih =>
    simp only [iterateOnto, iterate]
    split
    · split
      · simp [List.reverseAux_eq]
      · next new next rest h =>
        rw [ih, ih (new.reverseAux [])]
        simp [List.reverseAux_eq]
    · simp

/-- Nothing is read no times. -/
@[simp]
theorem times_zero (reader : Reader α) : times 0 reader = pure [] := rfl

/-- A repetition reads one entry and then the others. -/
theorem times_succ (n : Nat) (reader : Reader α) :
    times (n + 1) reader =
      reader >>= fun value => times n reader >>= fun values => pure (value :: values) := by
  funext input
  rw [bind_apply]
  simp only [times, timesOnto]
  split
  · simp_all
  · next more value rest h =>
    rw [timesOnto_eq, bind_apply]
    simp only [times]
    rcases timesOnto reader [] [] n rest with ⟨reports, _ | ⟨values, rest⟩⟩ <;>
      simp [List.reverseAux_eq, Except.map]

/-- A loop is at its end when its bound is. -/
@[simp]
theorem iterate_zero (more : σ → Bytes → Bool) (step : σ → Reader σ) (state : σ) :
    iterate 0 more step state = pure state := rfl

/-- A loop takes a step and goes on from there, as long as its condition holds. -/
theorem iterate_succ (n : Nat) (more : σ → Bytes → Bool) (step : σ → Reader σ) (state : σ)
    (input : Bytes) :
    iterate (n + 1) more step state input =
      if more state input then (step state >>= iterate n more step) input
      else ⟨[], .ok (state, input)⟩ := by
  rw [bind_apply]
  simp only [iterate, iterateOnto]
  split
  · split
    · simp [List.reverseAux_eq, *]
    · next new next rest h =>
      rw [iterateOnto_eq]
      simp [List.reverseAux_eq, iterate]
  · simp

end Reader

end JavaClass
