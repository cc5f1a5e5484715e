import JavaClass.Text.Utf16

/-!
# Modified UTF-8

The encoding of strings in class files. It differs from UTF-8 in two ways: the zero unit takes two
bytes, so that no encoded string holds a zero byte, and a supplementary character is written as its
two surrogates, three bytes each. Surrogates without a partner can be written too, so the encoding
is one of code units and not of text.

- `ModifiedUtf8.encode`: the bytes of a list of units.
- `ModifiedUtf8.decode`: the units of a list of bytes, or the position of the byte that is refused.
- `ModifiedUtf8.decodeText`: the same for text, which refuses unpaired surrogates.

Overlong forms, zero bytes and four-byte forms are refused, so that each list of units has one
encoding.
-/

namespace JavaClass

/-- A string of bytes. -/
abbrev Bytes := List UInt8

namespace ModifiedUtf8

/-- The bytes of one unit: one for a nonzero ASCII unit, two below `0x800`, else three. -/
def encodeUnit (unit : UInt16) : Bytes :=
  let n := unit.toNat
  if 0x01 ≤ n ∧ n ≤ 0x7F then [UInt8.ofNat n]
  else if n ≤ 0x7FF then [UInt8.ofNat (0xC0 + n / 0x40), UInt8.ofNat (0x80 + n % 0x40)]
  else
    [UInt8.ofNat (0xE0 + n / 0x1000), UInt8.ofNat (0x80 + n / 0x40 % 0x40),
      UInt8.ofNat (0x80 + n % 0x40)]

/-- The bytes of a list of units. -/
def encode (units : List UInt16) : Bytes := units.flatMap encodeUnit

/-- The bytes of a text. -/
def encodeText (text : String) : Bytes := encode (Utf16.ofText text)

/-- The six payload bits of a continuation byte. -/
def continuation? : Bytes → Option (Nat × Bytes)
  | [] => none
  | byte :: rest =>
    if 0x80 ≤ byte.toNat ∧ byte.toNat < 0xC0 then some (byte.toNat - 0x80, rest) else none

/-- Takes one unit off a form that starts with the byte `lead`, and tells the length of the form.
The error is the distance of the refused byte from the lead: a continuation that is missing or of
the wrong kind is refused where it should stand, anything else at the lead. -/
def decodeUnit (lead : UInt8) (rest : Bytes) : Except Nat (UInt16 × Nat × Bytes) :=
  let n := lead.toNat
  if 0x01 ≤ n ∧ n ≤ 0x7F then .ok (UInt16.ofNat n, 1, rest)
  -- Two bytes: the zero unit, and otherwise no unit that has a form of one byte.
  else if 0xC0 ≤ n ∧ n < 0xE0 then
    match continuation? rest with
    | none => .error 1
    | some (low, rest) =>
      let unit := (n - 0xC0) * 0x40 + low
      if unit ≠ 0 ∧ unit < 0x80 then .error 0 else .ok (UInt16.ofNat unit, 2, rest)
  -- Three bytes: no unit that has a shorter form.
  else if 0xE0 ≤ n ∧ n < 0xF0 then
    match continuation? rest with
    | none => .error 1
    | some (mid, rest) =>
      match continuation? rest with
      | none => .error 2
      | some (low, rest) =>
        let unit := (n - 0xE0) * 0x1000 + mid * 0x40 + low
        if unit < 0x800 then .error 0 else .ok (UInt16.ofNat unit, 3, rest)
  else .error 0

/-- What follows a continuation byte is shorter than what starts with it. -/
theorem length_lt_of_continuation? {bytes rest : Bytes} {bits : Nat}
    (h : continuation? bytes = some (bits, rest)) : rest.length < bytes.length := by
  cases bytes with
  | nil => simp [continuation?] at h
  | cons byte tail =>
    simp only [continuation?] at h
    split at h
    · obtain ⟨-, rfl⟩ := Prod.mk.inj (Option.some.inj h); simp
    · simp at h

/-- A unit takes at least its lead byte. -/
theorem length_le_of_decodeUnit {lead : UInt8} {bytes rest : Bytes} {unit : UInt16} {length : Nat}
    (h : decodeUnit lead bytes = .ok (unit, length, rest)) : rest.length ≤ bytes.length := by
  simp only [decodeUnit] at h
  split at h
  · cases h
    exact Nat.le_refl _
  · split at h
    · split at h
      · cases h
      · next hlow =>
        split at h
        · cases h
        · cases h
          exact Nat.le_of_lt (length_lt_of_continuation? hlow)
    · split at h
      · split at h
        · cases h
        · next hmid =>
          split at h
          · cases h
          · next hlow =>
            split at h
            · cases h
            · cases h
              have hltmid := length_lt_of_continuation? hmid
              have hltlow := length_lt_of_continuation? hlow
              omega
      · cases h

/-- The number of bytes that a unit is encoded with. -/
def encodedLength (unit : UInt16) : Nat :=
  let n := unit.toNat
  if 0x01 ≤ n ∧ n ≤ 0x7F then 1 else if n ≤ 0x7FF then 2 else 3

@[simp]
theorem length_encodeUnit (unit : UInt16) : (encodeUnit unit).length = encodedLength unit := by
  simp only [encodeUnit, encodedLength]
  split
  · rfl
  · split <;> rfl

/-- The number of bytes that a list of units is encoded with. -/
def encodedLengthOf : List UInt16 → Nat
  | [] => 0
  | unit :: units => encodedLength unit + encodedLengthOf units

theorem length_encode (units : List UInt16) : (encode units).length = encodedLengthOf units := by
  induction units with
  | nil => rfl
  | cons unit units ih =>
    rw [encodedLengthOf, ← ih, encode, encode, List.flatMap_cons, List.length_append,
      length_encodeUnit]

/-- Decodes behind the units found so far, which are held last first; `offset` is the position of
the first of the bytes, and moves on by the length of each form that is read. -/
def decodeOnto (found : List UInt16) (offset : Nat) : Bytes → Except Nat (List UInt16)
  | [] => .ok found.reverse
  | lead :: bytes =>
    match h : decodeUnit lead bytes with
    | .error ahead => .error (offset + ahead)
    | .ok (unit, length, rest) =>
      have := length_le_of_decodeUnit h
      decodeOnto (unit :: found) (offset + length) rest
termination_by bytes => bytes.length

/-- The units of a list of bytes. The error is the position of the refused byte. -/
def decode (bytes : Bytes) : Except Nat (List UInt16) := decodeOnto [] 0 bytes

/-- The characters of a list of scalars. The error is the position of the first unpaired surrogate,
which moves on by the bytes that the units of each character in front of it are encoded with. -/
def textOnto (found : List Char) (offset : Nat) : List Utf16.Scalar → Except Nat String
  | [] => .ok (String.ofList found.reverse)
  | .char c :: rest =>
    textOnto (c :: found) (offset + encodedLengthOf (Utf16.ofChar c)) rest
  | .unpaired _ :: _ => .error offset

/-- The text of a list of bytes. The error is the position of the refused byte; of an unpaired
surrogate, the first byte is refused, once all bytes are known to be in order. -/
def decodeText (bytes : Bytes) : Except Nat String := do
  textOnto [] 0 (Utf16.scalars (← decode bytes))

end ModifiedUtf8

end JavaClass
