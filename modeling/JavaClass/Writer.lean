import JavaClass.Reader

/-!
# Writing

The bytes of words and of tables. Every table stands behind a count of its entries; a table with
more entries than its count can say is refused instead of being cut short.

- `Bytes.ofU1`, `Bytes.ofU2`, `Bytes.ofU4`, `Bytes.ofU8`: big-endian words.
- `count16`, `count32`: counts of two and of four bytes.
- `writeAll`, `writeTable`: the entries of a table, without and with their count.
- `Reader.u1_ofU1` to `Reader.u8_ofU8`: a word read back is the word written.
-/

namespace JavaClass

namespace Bytes

/-- The byte of a number of one byte. -/
def ofU1 (value : UInt8) : Bytes := [value]

/-- The bytes of a number of two bytes, the higher one first. -/
def ofU2 (value : UInt16) : Bytes :=
  [UInt8.ofNat (value.toNat / 0x100), UInt8.ofNat value.toNat]

/-- The bytes of a number of four bytes, the highest one first. -/
def ofU4 (value : UInt32) : Bytes :=
  [UInt8.ofNat (value.toNat / 0x1000000), UInt8.ofNat (value.toNat / 0x10000),
    UInt8.ofNat (value.toNat / 0x100), UInt8.ofNat value.toNat]

/-- The bytes of a number of eight bytes, the highest one first. -/
def ofU8 (value : UInt64) : Bytes :=
  [UInt8.ofNat (value.toNat / 0x100000000000000), UInt8.ofNat (value.toNat / 0x1000000000000),
    UInt8.ofNat (value.toNat / 0x10000000000), UInt8.ofNat (value.toNat / 0x100000000),
    UInt8.ofNat (value.toNat / 0x1000000), UInt8.ofNat (value.toNat / 0x10000),
    UInt8.ofNat (value.toNat / 0x100), UInt8.ofNat value.toNat]

end Bytes

/-- A number of things as a count of two bytes. -/
def count16 (what : String) (count : Nat) : Except Error UInt16 :=
  if count < 0x10000 then .ok (UInt16.ofNat count) else .error (.tooMany what count)

/-- A number of things as a count of four bytes. -/
def count32 (what : String) (count : Nat) : Except Error UInt32 :=
  if count < 0x100000000 then .ok (UInt32.ofNat count) else .error (.tooMany what count)

/-- The bytes of some entries, one after another, or the error of the first that cannot be
written. -/
def writeAll {α : Type} (write : α → Except Error Bytes) (entries : List α) : Except Error Bytes :=
  (entries.mapM write).map List.flatten

/-- A count of two bytes and the bytes of so many entries. -/
def writeTable {α : Type} (what : String) (write : α → Except Error Bytes) (entries : List α) :
    Except Error Bytes := do
  let count ← count16 what entries.length
  return Bytes.ofU2 count ++ (← writeAll write entries)

/-! ## A word read back is the word written -/

@[simp]
theorem Reader.u1_ofU1 (value : UInt8) (rest : Bytes) :
    Reader.u1 (Bytes.ofU1 value ++ rest) = ⟨[], .ok (value, rest)⟩ := rfl

@[simp]
theorem Reader.u2_ofU2 (value : UInt16) (rest : Bytes) :
    Reader.u2 (Bytes.ofU2 value ++ rest) = ⟨[], .ok (value, rest)⟩ := by
  have hlt := value.toNat_lt
  -- The digits of the number to the base 256, put together again.
  have h : UInt16.ofNat (value.toNat / 0x100 % 0x100 * 0x100 + value.toNat % 0x100) = value := by
    rw [show value.toNat / 0x100 % 0x100 * 0x100 + value.toNat % 0x100 = value.toNat by omega]
    exact UInt16.ofNat_toNat
  simpa [Bytes.ofU2, Reader.u2] using h

@[simp]
theorem Reader.u4_ofU4 (value : UInt32) (rest : Bytes) :
    Reader.u4 (Bytes.ofU4 value ++ rest) = ⟨[], .ok (value, rest)⟩ := by
  have hlt := value.toNat_lt
  -- The digits of the number to the base 256, put together again.
  have h : UInt32.ofNat (((value.toNat / 0x1000000 % 0x100 * 0x100 +
      value.toNat / 0x10000 % 0x100) * 0x100 + value.toNat / 0x100 % 0x100) * 0x100 +
      value.toNat % 0x100) = value := by
    rw [show ((value.toNat / 0x1000000 % 0x100 * 0x100 + value.toNat / 0x10000 % 0x100) * 0x100 +
      value.toNat / 0x100 % 0x100) * 0x100 + value.toNat % 0x100 = value.toNat by omega]
    exact UInt32.ofNat_toNat
  simpa [Bytes.ofU4, Reader.u4] using h

set_option maxRecDepth 4000 in
@[simp]
theorem Reader.u8_ofU8 (value : UInt64) (rest : Bytes) :
    Reader.u8 (Bytes.ofU8 value ++ rest) = ⟨[], .ok (value, rest)⟩ := by
  have hlt := value.toNat_lt
  -- The two halves of the number, each put together from its digits to the base 256.
  have high : ((value.toNat / 0x100000000000000 % 0x100 * 0x100 +
      value.toNat / 0x1000000000000 % 0x100) * 0x100 + value.toNat / 0x10000000000 % 0x100) * 0x100 +
      value.toNat / 0x100000000 % 0x100 = value.toNat / 0x100000000 := by omega
  have low : ((value.toNat / 0x1000000 % 0x100 * 0x100 + value.toNat / 0x10000 % 0x100) * 0x100 +
      value.toNat / 0x100 % 0x100) * 0x100 + value.toNat % 0x100 = value.toNat % 0x100000000 := by
    omega
  have h := UInt64.ofNat_toNat (x := value)
  rw [← Nat.div_add_mod' value.toNat 0x100000000, ← high, ← low] at h
  simpa [Bytes.ofU8, Reader.u8] using h

end JavaClass
