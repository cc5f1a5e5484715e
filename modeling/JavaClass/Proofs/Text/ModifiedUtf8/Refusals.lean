import JavaClass.Constant.Format
import JavaClass.Proofs.Text.ModifiedUtf8

/-!
# What is no modified UTF-8

Bytes that are no encoding of units start with the encoding of some units, the longest front that is
one, and go on with a byte that starts no form of a unit. The byte that is refused is this one or
one of the two behind it.

- `ModifiedUtf8.decode_eq_error_iff`: the units in front of a refusal, and the byte that is refused.
- `ModifiedUtf8.Foreign`: the forms that other encodings have for a unit.
- `ModifiedUtf8.IsLongestAccepted`: the size of the longest front that is accepted.
- `ModifiedUtf8.isExact`: the strings of a class file have one form each, and a string that has
  another form is refused close behind what is accepted of it.
-/

namespace JavaClass.ModifiedUtf8

open Constant (unitsOfBytes)

/-! ## Where a unit is refused -/

section Units

variable {lead : UInt8} {rest : Bytes} {ahead : Nat}

/-- A byte that is refused stands where a form of at most three bytes would have it. If it is
missing, all bytes in front of it are there. -/
theorem le_of_decodeUnit_eq_error (h : decodeUnit lead rest = .error ahead) :
    ahead ≤ 2 ∧ ahead ≤ rest.length + 1 := by
  simp only [decodeUnit] at h
  split at h
  · cases h
  -- Of two bytes, the second one is refused, or the lead for the unit that they make up.
  split at h
  · split at h
    · cases h
      omega
    · split at h
      · cases h
        omega
      · cases h
  -- Of three bytes, the second one, the third one, or the lead.
  split at h
  · split at h
    · cases h
      omega
    · next mid more hmid =>
      -- The first continuation is there, so the place of the second is at most behind the bytes.
      have hlt := length_lt_of_continuation? hmid
      split at h
      · cases h
        omega
      · split at h
        · cases h
          omega
        · cases h
  · cases h
    omega

/-- A byte at which no unit starts starts none if there are fewer bytes behind it. -/
theorem decodeUnit_ne_ok_of_append {more : Bytes} {found : UInt16 × Nat × Bytes}
    (h : decodeUnit lead (rest ++ more) = .error ahead) : decodeUnit lead rest ≠ .ok found := by
  obtain ⟨unit, length, behind⟩ := found
  intro hunit
  -- A form is a form whatever stands behind it.
  obtain ⟨hform, -⟩ := eq_encodeUnit_of_decodeUnit hunit
  have hmore : lead :: (rest ++ more) = encodeUnit unit ++ (behind ++ more) := by
    rw [← List.cons_append, hform, List.append_assoc]
  rw [decodeUnit_encodeUnit hmore] at h
  cases h

/-- The forms that other encodings have for a unit or a character, in front of other bytes. -/
inductive Foreign : Bytes → Prop where
  /-- One byte for the zero unit. -/
  | null (rest : Bytes) : Foreign (0 :: rest)
  /-- Two bytes for a unit that has one. -/
  | overlongTwo {unit : Nat} (hpos : 0 < unit) (hlt : unit < 0x80) (rest : Bytes) :
    Foreign (UInt8.ofNat (0xC0 + unit / 0x40) :: UInt8.ofNat (0x80 + unit % 0x40) :: rest)
  /-- Three bytes for a unit that has one or two. -/
  | overlongThree {unit : Nat} (hlt : unit < 0x800) (rest : Bytes) :
    Foreign (0xE0 :: UInt8.ofNat (0x80 + unit / 0x40) :: UInt8.ofNat (0x80 + unit % 0x40) :: rest)
  /-- Four bytes, whichever they are. -/
  | four {lead : UInt8} (hlead : 0xF0 ≤ lead.toNat) (rest : Bytes) : Foreign (lead :: rest)

/-- A form of another encoding is refused at its first byte. -/
theorem Foreign.decodeUnit_eq_error (h : Foreign (lead :: rest)) :
    decodeUnit lead rest = .error 0 := by
  cases h with
  | null => rfl
  | @overlongTwo unit hpos hlt rest =>
    -- The bytes make up the unit again, and it is one that has a form of one byte.
    have hlead : (UInt8.ofNat (0xC0 + unit / 0x40)).toNat = 0xC0 + unit / 0x40 :=
      UInt8.toNat_ofNat_of_lt (by rw [UInt8.size]; omega)
    have hlow : continuation? (UInt8.ofNat (0x80 + unit % 0x40) :: rest) =
        some (unit % 0x40, rest) :=
      continuation?_eq_some_iff.mpr ⟨Nat.mod_lt _ (by decide), rfl⟩
    simp only [decodeUnit, hlead, hlow]
    rw [if_neg (by omega), if_pos (by omega), if_pos (by omega)]
  | @overlongThree unit hlt rest =>
    have hmid : continuation? (UInt8.ofNat (0x80 + unit / 0x40) ::
        UInt8.ofNat (0x80 + unit % 0x40) :: rest) =
        some (unit / 0x40, UInt8.ofNat (0x80 + unit % 0x40) :: rest) :=
      continuation?_eq_some_iff.mpr ⟨by omega, rfl⟩
    have hlow : continuation? (UInt8.ofNat (0x80 + unit % 0x40) :: rest) =
        some (unit % 0x40, rest) :=
      continuation?_eq_some_iff.mpr ⟨Nat.mod_lt _ (by decide), rfl⟩
    have hlead : (0xE0 : UInt8).toNat = 0xE0 := rfl
    simp only [decodeUnit, hlead, hmid, hlow]
    rw [if_neg (by omega), if_neg (by omega), if_pos (by omega), if_pos (by omega)]
  | four hlead =>
    rw [decodeUnit, if_neg (by omega), if_neg (by omega), if_neg (by omega)]

end Units

/-! ## Where a string is refused -/

theorem encode_cons (unit : UInt16) (units : List UInt16) :
    encode (unit :: units) = encodeUnit unit ++ encode units := List.flatMap_cons

theorem length_encode_cons (unit : UInt16) (units : List UInt16) :
    (encode (unit :: units)).length = encodedLength unit + (encode units).length := by
  rw [encode_cons, List.length_append, length_encodeUnit]

section Loop

variable {found : List UInt16} {offset ahead length : Nat} {lead : UInt8} {unit : UInt16}
  {bytes rest : Bytes}

/-- A unit that is decoded is found, and the loop goes on behind its form. -/
theorem decodeOnto_cons_of_eq_ok (h : decodeUnit lead bytes = .ok (unit, length, rest)) :
    decodeOnto found offset (lead :: bytes) =
      decodeOnto (unit :: found) (offset + length) rest := by
  rw [decodeOnto]
  split
  · next h' => cases h.symm.trans h'
  · next h' =>
    cases h.symm.trans h'
    rfl

/-- Where no unit starts, the loop stops with the position of the refused byte. -/
theorem decodeOnto_cons_of_eq_error (h : decodeUnit lead bytes = .error ahead) :
    decodeOnto found offset (lead :: bytes) = .error (offset + ahead) := by
  rw [decodeOnto]
  split
  · next h' =>
    cases h.symm.trans h'
    rfl
  · next h' => cases h.symm.trans h'

end Loop

/-- The encoding of units in front is decoded to them, and decoding goes on behind it. -/
theorem decodeOnto_encode_append (found : List UInt16) (offset : Nat) (units : List UInt16)
    (rest : Bytes) :
    decodeOnto found offset (encode units ++ rest) =
      decodeOnto (units.reverse ++ found) (offset + (encode units).length) rest := by
  induction units generalizing found offset with
  | nil => rfl
  | cons unit units ih =>
    obtain ⟨lead, more, hform⟩ := List.exists_cons_of_ne_nil (encodeUnit_ne_nil unit)
    have hbytes : encode (unit :: units) ++ rest = lead :: (more ++ (encode units ++ rest)) := by
      rw [encode_cons, hform, List.append_assoc, List.cons_append]
    have hunit : decodeUnit lead (more ++ (encode units ++ rest)) =
        .ok (unit, encodedLength unit, encode units ++ rest) :=
      decodeUnit_encodeUnit (by rw [hform, List.cons_append])
    -- The first form is decoded to its unit, and the others are decoded behind it.
    rw [hbytes, decodeOnto_cons_of_eq_ok hunit, ih, length_encode_cons, List.reverse_cons,
      List.append_assoc, Nat.add_assoc, List.singleton_append]

/-- In front of a byte that is refused, there are units and a byte at which no unit starts. -/
theorem exists_of_decodeOnto_eq_error {found : List UInt16} {offset position : Nat} {bytes : Bytes}
    (h : decodeOnto found offset bytes = .error position) :
    ∃ units lead rest ahead, bytes = encode units ++ lead :: rest ∧
      decodeUnit lead rest = .error ahead ∧ position = offset + (encode units).length + ahead := by
  fun_induction decodeOnto found offset bytes with
  | case1 => cases h
  | case2 found offset lead rest ahead hlead =>
    cases h
    exact ⟨[], lead, rest, ahead, rfl, hlead, rfl⟩
  | case3 found offset lead bytes unit length rest hunit _ ih =>
    obtain ⟨units, lead', rest', ahead, rfl, hlead, rfl⟩ := ih h
    obtain ⟨hform, rfl⟩ := eq_encodeUnit_of_decodeUnit hunit
    refine ⟨unit :: units, lead', rest', ahead, ?_, hlead, ?_⟩
    · rw [hform, encode_cons, List.append_assoc]
    · rw [length_encode_cons]
      omega

/-- Bytes are refused exactly if they are the encoding of some units in front of a byte at which no
unit starts. They are refused as far behind the units as the form that is tried there is. -/
theorem decode_eq_error_iff {bytes : Bytes} {position : Nat} :
    decode bytes = .error position ↔
      ∃ units lead rest ahead, bytes = encode units ++ lead :: rest ∧
        decodeUnit lead rest = .error ahead ∧ position = (encode units).length + ahead := by
  constructor
  · intro h
    simpa only [Nat.zero_add] using exists_of_decodeOnto_eq_error h
  · rintro ⟨units, lead, rest, ahead, rfl, hlead, rfl⟩
    rw [decode, decodeOnto_encode_append, decodeOnto_cons_of_eq_error hlead, Nat.zero_add]

/-- The longest front of some bytes that is accepted has this many of them. -/
structure IsLongestAccepted (bytes : Bytes) (size : Nat) : Prop where
  /-- There are so many bytes. -/
  le_length : size ≤ bytes.length
  /-- So many of them are accepted. -/
  accepted : ∃ units, decode (bytes.take size) = .ok units
  /-- No more of them are. -/
  le_of_accepted : ∀ n ≤ bytes.length, (∃ units, decode (bytes.take n) = .ok units) → n ≤ size

/-- The units in front of a byte at which no unit starts are all that is accepted. -/
theorem isLongestAccepted_of_decodeUnit {units : List UInt16} {lead : UInt8} {rest : Bytes}
    {ahead : Nat} (h : decodeUnit lead rest = .error ahead) :
    IsLongestAccepted (encode units ++ lead :: rest) (encode units).length where
  le_length := by rw [List.length_append]; omega
  accepted := ⟨units, by rw [List.take_left, decode_eq_ok_iff]⟩
  le_of_accepted := by
    rintro n - ⟨all, hall⟩
    by_contra hlt
    -- A longer front has the byte at which no unit starts, and fewer bytes behind it.
    obtain ⟨k, rfl⟩ : ∃ k, n = (encode units).length + (k + 1) :=
      ⟨n - (encode units).length - 1, by omega⟩
    rw [List.take_length_add_append, List.take_succ_cons] at hall
    -- It is refused as well, if not always at the same byte: the form may be cut off earlier.
    have herror : ∃ ahead', decodeUnit lead (rest.take k) = .error ahead' := by
      rcases hunit : decodeUnit lead (rest.take k) with ahead' | found
      · exact ⟨ahead', rfl⟩
      · rw [← List.take_append_drop k rest] at h
        exact absurd hunit (decodeUnit_ne_ok_of_append h)
    obtain ⟨ahead', hahead⟩ := herror
    rw [decode_eq_error_iff.mpr ⟨units, lead, rest.take k, ahead', rfl, hahead, rfl⟩] at hall
    cases hall

/-! ## The bytes of encodings -/

/-- No form of a unit has a zero byte or a byte that leads a form of four bytes. -/
theorem mem_encodeUnit {unit : UInt16} {byte : UInt8} (h : byte ∈ encodeUnit unit) :
    byte ≠ 0 ∧ byte.toNat < 0xF0 := by
  have hlt := unit.toNat_lt
  -- Every byte of a form is the byte of a number in this range.
  suffices hrange : ∃ n, 0 < n ∧ n < 0xF0 ∧ byte = UInt8.ofNat n by
    obtain ⟨n, hpos, hn, rfl⟩ := hrange
    have hval : (UInt8.ofNat n).toNat = n := UInt8.toNat_ofNat_of_lt (by rw [UInt8.size]; omega)
    refine ⟨fun hzero => ?_, by rwa [hval]⟩
    rw [← UInt8.toNat_inj, hval] at hzero
    exact Nat.ne_of_gt hpos hzero
  simp only [encodeUnit] at h
  split at h
  · obtain rfl := List.mem_singleton.mp h
    exact ⟨_, by omega, by omega, rfl⟩
  split at h
  · simp only [List.mem_cons, List.not_mem_nil, or_false] at h
    rcases h with rfl | rfl <;> exact ⟨_, by omega, by omega, rfl⟩
  · simp only [List.mem_cons, List.not_mem_nil, or_false] at h
    rcases h with rfl | rfl | rfl <;> exact ⟨_, by omega, by omega, rfl⟩

/-! ## Strings of class files -/

theorem unitsOfBytes_eq_ok_iff {bytes : Bytes} {units : List UInt16} :
    unitsOfBytes bytes = .ok units ↔ bytes = encode units := by
  rw [← decode_eq_ok_iff, unitsOfBytes]
  cases decode bytes <;> simp [Except.mapError]

theorem unitsOfBytes_eq_error_iff {bytes : Bytes} {cause : Error} :
    unitsOfBytes bytes = .error cause ↔
      ∃ position, decode bytes = .error position ∧ cause = .notModifiedUtf8 position := by
  rw [unitsOfBytes]
  cases decode bytes <;> simp [Except.mapError, eq_comm]

/-- What modified UTF-8 makes of some units, and of some bytes. -/
structure IsExact (units : List UInt16) (bytes : Bytes) : Prop where
  /-- What is encoded is decoded again, whether the surrogates in it are paired or not. -/
  decode_encode : unitsOfBytes (encode units) = .ok units
  /-- What is encoded holds no zero byte and no byte of a form of four bytes. -/
  mem_encode : ∀ byte ∈ encode units, byte ≠ 0 ∧ byte.toNat < 0xF0
  /-- What is decoded is encoded as it was. -/
  encode_decode : unitsOfBytes bytes = .ok units → encode units = bytes
  /-- The units have one form. -/
  existsUnique : ∃! form, unitsOfBytes form = .ok units
  /-- A form of another encoding is refused where it starts. -/
  foreign : Foreign bytes →
    unitsOfBytes (encode units ++ bytes) = .error (.notModifiedUtf8 (encode units).length)
  /-- What is refused is refused at one of the three bytes behind what is accepted of it, or at its
  end. -/
  error : ∀ cause, unitsOfBytes bytes = .error cause →
    ∃ offset size, cause = .notModifiedUtf8 offset ∧ offset ≤ bytes.length ∧
      IsLongestAccepted bytes size ∧ size ≤ offset ∧ offset ≤ size + 2

/-- Modified UTF-8 is one form for each string of units, and it is decoded exactly. -/
theorem isExact (units : List UInt16) (bytes : Bytes) : IsExact units bytes where
  decode_encode := unitsOfBytes_eq_ok_iff.mpr rfl
  mem_encode := by
    intro byte hbyte
    obtain ⟨unit, -, hform⟩ := List.mem_flatMap.mp hbyte
    exact mem_encodeUnit hform
  encode_decode := fun h => (unitsOfBytes_eq_ok_iff.mp h).symm
  existsUnique := ⟨encode units, unitsOfBytes_eq_ok_iff.mpr rfl, fun _ => unitsOfBytes_eq_ok_iff.mp⟩
  foreign := by
    intro h
    cases bytes with
    | nil => cases h
    | cons lead rest =>
      exact unitsOfBytes_eq_error_iff.mpr
        ⟨_, decode_eq_error_iff.mpr ⟨units, lead, rest, 0, rfl, h.decodeUnit_eq_error, rfl⟩, rfl⟩
  error := by
    intro cause h
    obtain ⟨position, hposition, rfl⟩ := unitsOfBytes_eq_error_iff.mp h
    -- The units in front of the refusal are the longest front, and the form behind it has at most
    -- three bytes.
    obtain ⟨front, lead, rest, ahead, rfl, hlead, rfl⟩ := decode_eq_error_iff.mp hposition
    obtain ⟨htwo, hlen⟩ := le_of_decodeUnit_eq_error hlead
    refine ⟨_, _, rfl, ?_, isLongestAccepted_of_decodeUnit hlead, by omega, by omega⟩
    rw [List.length_append, List.length_cons]
    omega

/-- A surrogate that is cut off behind a letter is refused at the end of the bytes, two behind the
letter, and the overlong form of the letter is refused where it starts. -/
theorem isExact_cutOff_and_overlong :
    (unitsOfBytes [0x41, 0xED, 0xA0] = .error (.notModifiedUtf8 3) ∧
      ∃ size, IsLongestAccepted [0x41, 0xED, 0xA0] size ∧ size ≤ 3 ∧ 3 ≤ size + 2) ∧
    unitsOfBytes (encode [0xD83D, 0] ++ [0xC1, 0x81]) = .error (.notModifiedUtf8 5) := by
  have hcut : unitsOfBytes [0x41, 0xED, 0xA0] = .error (.notModifiedUtf8 3) := by decide +kernel
  obtain ⟨offset, size, hoffset, -, hlongest, hle, hsize⟩ := (isExact [] _).error _ hcut
  obtain rfl := Error.notModifiedUtf8.inj hoffset
  have hforeign : Foreign [0xC1, 0x81] :=
    .overlongTwo (show 0 < 0x41 by decide) (show 0x41 < 0x80 by decide) []
  exact ⟨⟨hcut, size, hlongest, hle, hsize⟩, (isExact [0xD83D, 0] _).foreign hforeign⟩

end JavaClass.ModifiedUtf8
