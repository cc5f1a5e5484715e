import JavaClass.Writer

/-!
# What writers yield

A writer yields bytes or refuses. This module says when the writers that are put together from
others yield bytes, and which.

- `bind_eq_ok`, `map_eq_ok`: a computation yields what its last step yields, if all steps succeed.
- `writeAll_cons_eq_ok`, `writeAll_append_eq_ok`: the bytes of entries are the bytes of each.
- `writeTable_eq_ok`: the bytes of a table are its count and the bytes of its entries.
- `Bytes.ofU2_ofNat` and others: the bytes of a word are the digits it was put together from.
-/

namespace JavaClass

variable {α β ε : Type}

/-- Two computations succeed one after the other exactly if both do. -/
theorem bind_eq_ok {first : Except ε α} {second : α → Except ε β} {value : β} :
    (first >>= second) = .ok value ↔ ∃ found, first = .ok found ∧ second found = .ok value := by
  cases first with
  | error cause => simp [bind, Except.bind]
  | ok found => simp [bind, Except.bind]

/-- A changed result is a changed success. -/
theorem map_eq_ok {first : Except ε α} {change : α → β} {value : β} :
    first.map change = .ok value ↔ ∃ found, first = .ok found ∧ change found = value := by
  cases first with
  | error cause => simp [Except.map]
  | ok found => simp [Except.map]

/-- What is returned is what is yielded. -/
@[simp]
theorem pure_eq_ok {value found : α} :
    (pure value : Except ε α) = .ok found ↔ value = found := by
  simp [pure, Except.pure]

/-! ## Counts -/

/-- A count of two bytes is the number that is counted, which two bytes can say. -/
theorem count16_eq_ok {what : String} {count : Nat} {value : UInt16} :
    count16 what count = .ok value ↔ value.toNat = count := by
  have hlt := value.toNat_lt
  unfold count16
  split
  · next h =>
    rw [Except.ok.injEq]
    constructor
    · rintro rfl
      exact UInt16.toNat_ofNat_of_lt h
    · rintro rfl
      exact UInt16.ofNat_toNat
  · -- A count that is refused is more than two bytes can say.
    next h =>
    refine ⟨fun h' => by simp at h', fun h' => ?_⟩
    omega

/-- A count of four bytes is the number that is counted, which four bytes can say. -/
theorem count32_eq_ok {what : String} {count : Nat} {value : UInt32} :
    count32 what count = .ok value ↔ value.toNat = count := by
  have hlt := value.toNat_lt
  unfold count32
  split
  · next h =>
    rw [Except.ok.injEq]
    constructor
    · rintro rfl
      exact UInt32.toNat_ofNat_of_lt h
    · rintro rfl
      exact UInt32.ofNat_toNat
  · -- A count that is refused is more than four bytes can say.
    next h =>
    refine ⟨fun h' => by simp at h', fun h' => ?_⟩
    omega

/-! ## Tables -/

variable {write : α → Except Error Bytes}

@[simp]
theorem writeAll_nil : writeAll write [] = .ok [] := rfl

/-- The first entry is written, and then the others. -/
theorem writeAll_cons (write : α → Except Error Bytes) (entry : α) (entries : List α) :
    writeAll write (entry :: entries) =
      (do return (← write entry) ++ (← writeAll write entries)) := by
  rw [writeAll, writeAll, List.mapM_cons]
  cases write entry with
  | error cause => rfl
  | ok head => cases entries.mapM write <;> rfl

/-- The bytes of entries are those of the first and those of the others. -/
theorem writeAll_cons_eq_ok {entry : α} {entries : List α} {bytes : Bytes} :
    writeAll write (entry :: entries) = .ok bytes ↔
      ∃ head tail, write entry = .ok head ∧ writeAll write entries = .ok tail ∧
        bytes = head ++ tail := by
  simp only [writeAll_cons, bind_eq_ok, pure_eq_ok, eq_comm (a := bytes), exists_and_left]

/-- The bytes of two lists of entries are those of the one and those of the other. -/
theorem writeAll_append_eq_ok {first second : List α} {bytes : Bytes} :
    writeAll write (first ++ second) = .ok bytes ↔
      ∃ front back, writeAll write first = .ok front ∧ writeAll write second = .ok back ∧
        bytes = front ++ back := by
  induction first generalizing bytes with
  | nil => simp
  | cons entry entries ih =>
    simp only [List.cons_append, writeAll_cons_eq_ok, ih]
    constructor
    · rintro ⟨head, _, hhead, ⟨front, back, hfront, hback, rfl⟩, rfl⟩
      exact ⟨head ++ front, back, ⟨head, front, hhead, hfront, rfl⟩, hback, by simp⟩
    · rintro ⟨_, back, ⟨head, front, hhead, hfront, rfl⟩, hback, rfl⟩
      exact ⟨head, front ++ back, hhead, ⟨front, back, hfront, hback, rfl⟩, by simp⟩

/-- If entries are written, each of them is, and its bytes stand among those of all. -/
theorem exists_write_of_mem {entries : List α} {bytes : Bytes}
    (h : writeAll write entries = .ok bytes) {entry : α} (hmem : entry ∈ entries) :
    ∃ piece, write entry = .ok piece ∧ piece <:+: bytes := by
  -- The entry stands between others, and so do its bytes.
  obtain ⟨before, after, rfl⟩ := List.append_of_mem hmem
  obtain ⟨front, _, -, hback, rfl⟩ := writeAll_append_eq_ok.mp h
  obtain ⟨piece, back, hpiece, -, rfl⟩ := writeAll_cons_eq_ok.mp hback
  exact ⟨piece, hpiece, front, back, by rw [List.append_assoc]⟩

/-- A table is written as a count and its entries, if two bytes can say how many there are. -/
theorem writeTable_eq_ok {what : String} {entries : List α} {bytes : Bytes} :
    writeTable what write entries = .ok bytes ↔
      ∃ count body, count.toNat = entries.length ∧ writeAll write entries = .ok body ∧
        bytes = Bytes.ofU2 count ++ body := by
  simp only [writeTable, bind_eq_ok, count16_eq_ok, pure_eq_ok]
  constructor
  · rintro ⟨count, hcount, body, hbody, rfl⟩
    exact ⟨count, body, hcount, hbody, rfl⟩
  · rintro ⟨count, body, hcount, hbody, rfl⟩
    exact ⟨count, hcount, body, hbody, rfl⟩

/-- Entries that are never refused are written one after another. -/
theorem writeAll_ok (toBytes : α → Bytes) (entries : List α) :
    writeAll (fun entry => .ok (toBytes entry)) entries = .ok (entries.flatMap toBytes) := by
  induction entries with
  | nil => rfl
  | cons entry entries ih =>
    rw [writeAll_cons_eq_ok]
    exact ⟨toBytes entry, entries.flatMap toBytes, rfl, ih, rfl⟩

/-! ## Words -/

namespace Bytes

@[simp]
theorem length_ofU1 (value : UInt8) : (ofU1 value).length = 1 := rfl

@[simp]
theorem length_ofU2 (value : UInt16) : (ofU2 value).length = 2 := rfl

@[simp]
theorem length_ofU4 (value : UInt32) : (ofU4 value).length = 4 := rfl

@[simp]
theorem length_ofU8 (value : UInt64) : (ofU8 value).length = 8 := rfl

/-- The bytes of a number put together from two digits are these digits. -/
theorem ofU2_ofNat (a b : UInt8) :
    ofU2 (UInt16.ofNat (a.toNat * 0x100 + b.toNat)) = [a, b] := by
  have ha := a.toNat_lt
  have hb := b.toNat_lt
  have hn : (UInt16.ofNat (a.toNat * 0x100 + b.toNat)).toNat = a.toNat * 0x100 + b.toNat :=
    UInt16.toNat_ofNat_of_lt (by rw [UInt16.size]; omega)
  simp only [ofU2, hn, List.cons.injEq, and_true, ← UInt8.toNat_inj, UInt8.toNat_ofNat']
  omega

/-- Four digits make up a number that four bytes can say. -/
theorem digits_lt (a b c d : UInt8) :
    ((a.toNat * 0x100 + b.toNat) * 0x100 + c.toNat) * 0x100 + d.toNat < 0x100000000 := by
  have ha := a.toNat_lt
  have hb := b.toNat_lt
  have hc := c.toNat_lt
  have hd := d.toNat_lt
  omega

/-- The bytes of a number put together from four digits are these digits. -/
theorem ofU4_ofNat (a b c d : UInt8) :
    ofU4 (UInt32.ofNat (((a.toNat * 0x100 + b.toNat) * 0x100 + c.toNat) * 0x100 + d.toNat)) =
      [a, b, c, d] := by
  have ha := a.toNat_lt
  have hb := b.toNat_lt
  have hc := c.toNat_lt
  have hd := d.toNat_lt
  have hn : (UInt32.ofNat (((a.toNat * 0x100 + b.toNat) * 0x100 + c.toNat) * 0x100 +
      d.toNat)).toNat = ((a.toNat * 0x100 + b.toNat) * 0x100 + c.toNat) * 0x100 + d.toNat :=
    UInt32.toNat_ofNat_of_lt (digits_lt a b c d)
  simp only [ofU4, hn, List.cons.injEq, and_true, ← UInt8.toNat_inj, UInt8.toNat_ofNat']
  omega

/-- The bytes of a number put together from two halves are those of the halves. -/
theorem ofU8_ofNat {high low : Nat} (hhigh : high < 0x100000000) (hlow : low < 0x100000000) :
    ofU8 (UInt64.ofNat (high * 0x100000000 + low)) =
      ofU4 (UInt32.ofNat high) ++ ofU4 (UInt32.ofNat low) := by
  have hn : (UInt64.ofNat (high * 0x100000000 + low)).toNat = high * 0x100000000 + low :=
    UInt64.toNat_ofNat_of_lt (by rw [UInt64.size]; omega)
  have hh : (UInt32.ofNat high).toNat = high := UInt32.toNat_ofNat_of_lt hhigh
  have hl : (UInt32.ofNat low).toNat = low := UInt32.toNat_ofNat_of_lt hlow
  simp only [ofU8, ofU4, hn, hh, hl, List.cons_append, List.nil_append, List.cons.injEq, and_true,
    ← UInt8.toNat_inj, UInt8.toNat_ofNat']
  omega

end Bytes

end JavaClass
