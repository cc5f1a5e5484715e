import JavaClass.Reader

/-!
# Texts as bytes in UTF-8

A text can be cut where one of its characters ends, but not inside a character. A position among the
bytes is one where a character ends if only whole characters stand before it. Such positions are
found by looking for characters of one byte, as no other character has this byte in it.

- `Utf8.encode`: the bytes of characters.
- `Utf8.mem_utf8EncodeChar_iff`: a byte below 128 is a character of its own.
- `Utf8.cut?`, `Utf8.slice?`: cutting a text at positions among its bytes.
- `Utf8.cut?_eq_some_iff`: where a text can be cut.
-/

namespace JavaClass.Utf8

/-- The bytes of some characters. -/
def encode (chars : List Char) : Bytes := chars.flatMap String.utf8EncodeChar

/-- The bytes of the characters of a text are those of the text. -/
theorem toByteArray_encode (text : String) : (encode text.toList).toByteArray = text.toByteArray :=
  String.utf8Encode_toList

@[simp]
theorem encode_nil : encode [] = [] := rfl

@[simp]
theorem encode_cons (c : Char) (chars : List Char) :
    encode (c :: chars) = String.utf8EncodeChar c ++ encode chars := rfl

@[simp]
theorem encode_append (first second : List Char) :
    encode (first ++ second) = encode first ++ encode second := List.flatMap_append

@[simp]
theorem encode_eq_nil_iff {chars : List Char} : encode chars = [] ↔ chars = [] := by
  cases chars with
  | nil => simp
  | cons c chars => simp

theorem toNat_toUInt8 {c : Char} (h : c.toNat ≤ 127) : c.toUInt8.toNat = c.toNat :=
  UInt8.toNat_ofNat_of_lt' (Nat.lt_of_le_of_lt h (by decide))

/-- A character below 128 is its own byte. -/
theorem utf8EncodeChar_of_ascii {c : Char} (h : c.toNat ≤ 127) :
    String.utf8EncodeChar c = [c.toUInt8] := by
  rw [String.utf8EncodeChar]
  exact if_pos h

/-- Characters have at least as many bytes as there are characters. -/
theorem length_le_length_encode (chars : List Char) : chars.length ≤ (encode chars).length := by
  induction chars with
  | nil => exact Nat.le_refl 0
  | cons c chars ih =>
    have hpos := c.utf8Size_pos
    rw [encode_cons, List.length_append, List.length_cons, String.length_utf8EncodeChar]
    omega

/-- Characters below 128 have as many bytes. -/
theorem length_encode_of_ascii {chars : List Char} (h : ∀ c ∈ chars, c.toNat ≤ 127) :
    (encode chars).length = chars.length := by
  induction chars with
  | nil => rfl
  | cons c chars ih =>
    obtain ⟨hc, hchars⟩ := List.forall_mem_cons.mp h
    rw [encode_cons, utf8EncodeChar_of_ascii hc, List.length_append, ih hchars, List.length_cons,
      Nat.add_comm]
    rfl

/-- All bytes of a character from 128 on are such bytes, too. -/
theorem le_of_mem_utf8EncodeChar {c : Char} {byte : UInt8} (h : ¬ c.toNat ≤ 127)
    (hmem : byte ∈ String.utf8EncodeChar c) : 128 ≤ byte.toNat := by
  have hone : ¬ c.val.toNat ≤ 127 := h
  rw [String.utf8EncodeChar.eq_1, if_neg hone] at hmem
  -- There are two, three or four bytes, and 128 or more is added to the digits in each.
  split at hmem
  · simp only [List.mem_cons, List.not_mem_nil, or_false] at hmem
    rcases hmem with rfl | rfl <;> rw [UInt8.toNat_ofNat'] <;> omega
  split at hmem
  · simp only [List.mem_cons, List.not_mem_nil, or_false] at hmem
    rcases hmem with rfl | rfl | rfl <;> rw [UInt8.toNat_ofNat'] <;> omega
  · simp only [List.mem_cons, List.not_mem_nil, or_false] at hmem
    rcases hmem with rfl | rfl | rfl | rfl <;> rw [UInt8.toNat_ofNat'] <;> omega

/-- The byte of a character below 128 is in no other character. -/
theorem mem_utf8EncodeChar_iff {ascii c : Char} (h : ascii.toNat ≤ 127) :
    ascii.toUInt8 ∈ String.utf8EncodeChar c ↔ c = ascii := by
  have hbyte := toNat_toUInt8 h
  by_cases hc : c.toNat ≤ 127
  · rw [utf8EncodeChar_of_ascii hc, List.mem_singleton, ← UInt8.toNat_inj, hbyte, toNat_toUInt8 hc]
    exact ⟨fun heq => Char.toNat_inj.mp heq.symm, fun heq => heq ▸ rfl⟩
  · constructor
    · intro hmem
      have := le_of_mem_utf8EncodeChar hc hmem
      omega
    · intro heq
      exact absurd (heq ▸ h) hc

/-! ## Looking for characters -/

section Ascii

variable {ascii : Char} (h : ascii.toNat ≤ 127)
include h

/-- A character below 128 is among characters exactly if its byte is among their bytes. -/
theorem mem_encode_iff {chars : List Char} : ascii.toUInt8 ∈ encode chars ↔ ascii ∈ chars := by
  rw [encode, List.mem_flatMap]
  simp only [mem_utf8EncodeChar_iff h, exists_eq_right]

/-- The first byte of characters tells whether the first of them is one below 128. -/
theorem head?_encode_eq_some_iff {chars : List Char} :
    (encode chars).head? = some ascii.toUInt8 ↔ chars.head? = some ascii := by
  cases chars with
  | nil => simp
  | cons c chars =>
    obtain ⟨byte, bytes, hbytes⟩ :=
      List.exists_cons_of_ne_nil (String.utf8EncodeChar_ne_nil (c := c))
    rw [encode_cons, hbytes, List.cons_append, List.head?_cons, List.head?_cons, Option.some.injEq,
      Option.some.injEq]
    constructor
    · rintro rfl
      exact (mem_utf8EncodeChar_iff h).mp (hbytes ▸ List.mem_cons_self)
    · rintro rfl
      rw [utf8EncodeChar_of_ascii h] at hbytes
      exact (List.cons.inj hbytes).1.symm

/-- A character below 128 that is not there has no byte there. -/
theorem findIdx?_encode_eq_none {chars : List Char} (hmem : ascii ∉ chars) :
    (encode chars).findIdx? (· == ascii.toUInt8) = none := by
  rw [List.findIdx?_eq_none_iff]
  intro byte hbyte
  exact beq_false_of_ne fun heq => hmem ((mem_encode_iff h).mp (heq ▸ hbyte))

/-- The first byte of a character below 128 is where the characters before it end. -/
theorem findIdx?_encode_append {before after : List Char} (hmem : ascii ∉ before) :
    (encode (before ++ ascii :: after)).findIdx? (· == ascii.toUInt8) =
      some (encode before).length := by
  rw [encode_append, encode_cons, utf8EncodeChar_of_ascii h, List.findIdx?_append,
    findIdx?_encode_eq_none h hmem]
  simp [List.findIdx?_cons]

/-- A character below 128 is repeated as often as its byte is. -/
theorem takeWhile_encode (chars : List Char) :
    (encode chars).takeWhile (· == ascii.toUInt8) =
      encode (chars.takeWhile (· == ascii)) := by
  induction chars with
  | nil => rfl
  | cons c chars ih =>
    by_cases hc : c = ascii
    · subst hc
      simp [utf8EncodeChar_of_ascii h, ih]
    · obtain ⟨byte, bytes, hbytes⟩ :=
        List.exists_cons_of_ne_nil (String.utf8EncodeChar_ne_nil (c := c))
      have hbyte : ¬ (byte == ascii.toUInt8) = true := fun heq =>
        hc ((mem_utf8EncodeChar_iff h).mp (beq_iff_eq.mp heq ▸ hbytes ▸ List.mem_cons_self))
      rw [encode_cons, hbytes, List.cons_append,
        List.takeWhile_cons_of_neg (p := (· == ascii.toUInt8)) hbyte,
        List.takeWhile_cons_of_neg (by simpa using hc), encode_nil]

end Ascii

/-! ## Cutting a text -/

/-- Cuts characters where as many bytes stand before. Inside a character and behind the last one,
they cannot be cut. -/
def cut? : List Char → Nat → Option (List Char × List Char)
  | chars, 0 => some ([], chars)
  | [], _ + 1 => none
  | c :: chars, size + 1 =>
    if c.utf8Size ≤ size + 1 then
      (cut? chars (size + 1 - c.utf8Size)).map fun (first, second) => (c :: first, second)
    else none

/-- Characters can be cut between any two of them and nowhere else. -/
theorem cut?_eq_some_iff {chars first second : List Char} {size : Nat} :
    cut? chars size = some (first, second) ↔
      chars = first ++ second ∧ (encode first).length = size := by
  fun_induction cut? chars size generalizing first with
  | case1 chars =>
    rw [Option.some.injEq, Prod.mk.injEq, List.length_eq_zero_iff, encode_eq_nil_iff]
    constructor
    · rintro ⟨rfl, rfl⟩
      exact ⟨rfl, rfl⟩
    · rintro ⟨heq, rfl⟩
      exact ⟨rfl, heq⟩
  | case2 size =>
    constructor
    · intro h
      cases h
    · rintro ⟨heq, hsize⟩
      rw [(List.append_eq_nil_iff.mp heq.symm).1] at hsize
      cases hsize
  | case3 c chars size hle ih =>
    simp only [Option.map_eq_some_iff, Prod.exists, Prod.mk.injEq]
    constructor
    · rintro ⟨before, _, hcut, rfl, rfl⟩
      obtain ⟨rfl, hsize⟩ := ih.mp hcut
      refine ⟨rfl, ?_⟩
      rw [encode_cons, List.length_append, String.length_utf8EncodeChar]
      omega
    · rintro ⟨heq, hsize⟩
      cases first with
      | nil => cases hsize
      | cons other before =>
        obtain ⟨rfl, hchars⟩ := List.cons.inj heq
        rw [encode_cons, List.length_append, String.length_utf8EncodeChar] at hsize
        exact ⟨before, second, ih.mpr ⟨hchars, by omega⟩, rfl, rfl⟩
  | case4 c chars size hlt =>
    constructor
    · intro h
      cases h
    · rintro ⟨heq, hsize⟩
      cases first with
      | nil => cases hsize
      | cons other before =>
        obtain ⟨rfl, -⟩ := List.cons.inj heq
        rw [encode_cons, List.length_append, String.length_utf8EncodeChar] at hsize
        omega

/-- The part of a text between two positions among its bytes, if it can be cut there. -/
def slice? (text : String) (first last : Nat) : Option String :=
  if first ≤ last then do
    let (_, rest) ← cut? text.toList first
    let (part, _) ← cut? rest (last - first)
    return String.ofList part
  else none

/-- Characters can be sliced from a text. -/
theorem slice?_of_eq {text : String} {before part after : List Char}
    (h : text.toList = before ++ (part ++ after)) :
    slice? text (encode before).length ((encode before).length + (encode part).length) =
      some (String.ofList part) := by
  have hfirst : cut? text.toList (encode before).length = some (before, part ++ after) :=
    cut?_eq_some_iff.mpr ⟨h, rfl⟩
  have hlast : cut? (part ++ after) (encode part).length = some (part, after) :=
    cut?_eq_some_iff.mpr ⟨rfl, rfl⟩
  rw [slice?, if_pos (Nat.le_add_right _ _), hfirst, Nat.add_sub_cancel_left]
  simp [hlast]

end JavaClass.Utf8
