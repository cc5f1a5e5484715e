import JavaClass.Proofs.Text.Utf16
import JavaClass.Text.ModifiedUtf8

/-!
# Modified UTF-8 is one encoding per string of units

Every list of units has one form, and the decoder accepts nothing else.

- `ModifiedUtf8.decodeUnit_eq_ok_iff`: a unit is decoded exactly from its own form, and the length of
  that is told.
- `ModifiedUtf8.decode_eq_ok_iff`: bytes decode to units exactly if they are their encoding.
-/

namespace JavaClass.ModifiedUtf8

/-- A continuation byte holds six bits. -/
theorem continuation?_eq_some_iff {bytes rest : Bytes} {bits : Nat} :
    continuation? bytes = some (bits, rest) ↔
      bits < 0x40 ∧ bytes = UInt8.ofNat (0x80 + bits) :: rest := by
  cases bytes with
  | nil => simp [continuation?]
  | cons byte tail =>
    have hbyte := byte.toNat_lt
    simp only [continuation?, List.cons.injEq, ← UInt8.toNat_inj, UInt8.toNat_ofNat']
    split
    · rw [Option.some.injEq, Prod.mk.injEq]
      constructor
      · rintro ⟨rfl, rfl⟩
        exact ⟨by omega, by omega, rfl⟩
      · rintro ⟨hbits, hval, rfl⟩
        exact ⟨by omega, rfl⟩
    · constructor
      · intro h
        cases h
      · rintro ⟨hbits, hval, -⟩
        omega

/-! ## The three forms

The lead byte tells how many bytes a form has. Each of the lemmas on decoding is for the lead bytes
of one form, and each of the lemmas on encoding for the units that have it. -/

section Forms

variable {lead : UInt8} {bytes rest : Bytes} {unit : UInt16} {length : Nat}

theorem decodeUnit_one_eq_ok_iff (hlead : 0x01 ≤ lead.toNat ∧ lead.toNat ≤ 0x7F) :
    decodeUnit lead bytes = .ok (unit, length, rest) ↔
      unit.toNat = lead.toNat ∧ length = 1 ∧ bytes = rest := by
  have hunit : (UInt16.ofNat lead.toNat).toNat = lead.toNat :=
    UInt16.toNat_ofNat_of_lt (by rw [UInt16.size]; omega)
  rw [decodeUnit, if_pos hlead, Except.ok.injEq, Prod.mk.injEq, Prod.mk.injEq, ← UInt16.toNat_inj,
    hunit, eq_comm, @eq_comm _ 1]

theorem decodeUnit_two_eq_ok_iff (hlead : 0xC0 ≤ lead.toNat ∧ lead.toNat < 0xE0) :
    decodeUnit lead bytes = .ok (unit, length, rest) ↔ length = 2 ∧
      ∃ low, low < 0x40 ∧ bytes = UInt8.ofNat (0x80 + low) :: rest ∧
        unit.toNat = (lead.toNat - 0xC0) * 0x40 + low ∧ (unit.toNat = 0 ∨ 0x80 ≤ unit.toNat) := by
  have hunit {low : Nat} (hlow : low < 0x40) :
      (UInt16.ofNat ((lead.toNat - 0xC0) * 0x40 + low)).toNat =
        (lead.toNat - 0xC0) * 0x40 + low :=
    UInt16.toNat_ofNat_of_lt (by rw [UInt16.size]; omega)
  simp only [decodeUnit]
  rw [if_neg (by omega), if_pos hlead]
  constructor
  · intro h
    split at h
    · cases h
    · next low more hlow =>
      obtain ⟨hlt, hbytes⟩ := continuation?_eq_some_iff.mp hlow
      split at h
      · cases h
      · cases h
        exact ⟨rfl, low, hlt, hbytes, hunit hlt, by rw [hunit hlt]; omega⟩
  · rintro ⟨rfl, low, hlt, hbytes, hval, hshort⟩
    rw [continuation?_eq_some_iff.mpr ⟨hlt, hbytes⟩]
    dsimp only
    rw [← hval, if_neg (by omega), UInt16.ofNat_toNat]

theorem decodeUnit_three_eq_ok_iff (hlead : 0xE0 ≤ lead.toNat ∧ lead.toNat < 0xF0) :
    decodeUnit lead bytes = .ok (unit, length, rest) ↔ length = 3 ∧
      ∃ mid low, mid < 0x40 ∧ low < 0x40 ∧
        bytes = UInt8.ofNat (0x80 + mid) :: UInt8.ofNat (0x80 + low) :: rest ∧
          unit.toNat = (lead.toNat - 0xE0) * 0x1000 + mid * 0x40 + low ∧ 0x800 ≤ unit.toNat := by
  have hunit {mid low : Nat} (hmid : mid < 0x40) (hlow : low < 0x40) :
      (UInt16.ofNat ((lead.toNat - 0xE0) * 0x1000 + mid * 0x40 + low)).toNat =
        (lead.toNat - 0xE0) * 0x1000 + mid * 0x40 + low :=
    UInt16.toNat_ofNat_of_lt (by rw [UInt16.size]; omega)
  simp only [decodeUnit]
  rw [if_neg (by omega), if_neg (by omega), if_pos hlead]
  constructor
  · intro h
    split at h
    · cases h
    · next mid more hmid =>
      obtain ⟨hltmid, rfl⟩ := continuation?_eq_some_iff.mp hmid
      split at h
      · cases h
      · next low more hlow =>
        obtain ⟨hltlow, rfl⟩ := continuation?_eq_some_iff.mp hlow
        split at h
        · cases h
        · cases h
          exact ⟨rfl, mid, low, hltmid, hltlow, rfl, hunit hltmid hltlow,
            by rw [hunit hltmid hltlow]; omega⟩
  · rintro ⟨rfl, mid, low, hltmid, hltlow, hbytes, hval, hshort⟩
    rw [continuation?_eq_some_iff.mpr ⟨hltmid, hbytes⟩]
    dsimp only
    rw [continuation?_eq_some_iff.mpr ⟨hltlow, rfl⟩]
    dsimp only
    rw [← hval, if_neg (by omega), UInt16.ofNat_toNat]

/-- All other bytes are refused as leads. -/
theorem decodeUnit_ne_ok (hone : ¬ (0x01 ≤ lead.toNat ∧ lead.toNat ≤ 0x7F))
    (htwo : ¬ (0xC0 ≤ lead.toNat ∧ lead.toNat < 0xE0))
    (hthree : ¬ (0xE0 ≤ lead.toNat ∧ lead.toNat < 0xF0)) :
    decodeUnit lead bytes ≠ .ok (unit, length, rest) := by
  rw [decodeUnit, if_neg hone, if_neg htwo, if_neg hthree]
  intro h
  cases h

theorem eq_encodeUnit_one_iff (hunit : 0x01 ≤ unit.toNat ∧ unit.toNat ≤ 0x7F) :
    lead :: bytes = encodeUnit unit ++ rest ↔ unit.toNat = lead.toNat ∧ bytes = rest := by
  have hlead : (UInt8.ofNat unit.toNat).toNat = unit.toNat :=
    UInt8.toNat_ofNat_of_lt (by rw [UInt8.size]; omega)
  rw [encodeUnit, if_pos hunit, List.singleton_append, List.cons.injEq, ← UInt8.toNat_inj, hlead,
    @eq_comm _ lead.toNat]

theorem eq_encodeUnit_two_iff (hone : ¬ (0x01 ≤ unit.toNat ∧ unit.toNat ≤ 0x7F))
    (hunit : unit.toNat ≤ 0x7FF) :
    lead :: bytes = encodeUnit unit ++ rest ↔
      lead.toNat = 0xC0 + unit.toNat / 0x40 ∧
        bytes = UInt8.ofNat (0x80 + unit.toNat % 0x40) :: rest := by
  have hlead : (UInt8.ofNat (0xC0 + unit.toNat / 0x40)).toNat = 0xC0 + unit.toNat / 0x40 :=
    UInt8.toNat_ofNat_of_lt (by rw [UInt8.size]; omega)
  rw [encodeUnit, if_neg hone, if_pos hunit, List.cons_append, List.singleton_append,
    List.cons.injEq, ← UInt8.toNat_inj, hlead]

theorem eq_encodeUnit_three_iff (hunit : 0x800 ≤ unit.toNat) :
    lead :: bytes = encodeUnit unit ++ rest ↔
      lead.toNat = 0xE0 + unit.toNat / 0x1000 ∧
        bytes = UInt8.ofNat (0x80 + unit.toNat / 0x40 % 0x40) ::
          UInt8.ofNat (0x80 + unit.toNat % 0x40) :: rest := by
  have hlt := unit.toNat_lt
  have hlead : (UInt8.ofNat (0xE0 + unit.toNat / 0x1000)).toNat = 0xE0 + unit.toNat / 0x1000 :=
    UInt8.toNat_ofNat_of_lt (by rw [UInt8.size]; omega)
  rw [encodeUnit, if_neg (by omega), if_neg (by omega), List.cons_append, List.cons_append,
    List.singleton_append, List.cons.injEq, ← UInt8.toNat_inj, hlead]

/-- A unit that is decoded stands in front of the bytes in its own form, the length of which is
told. -/
theorem eq_encodeUnit_of_decodeUnit (h : decodeUnit lead bytes = .ok (unit, length, rest)) :
    lead :: bytes = encodeUnit unit ++ rest ∧ length = encodedLength unit := by
  by_cases hone : 0x01 ≤ lead.toNat ∧ lead.toNat ≤ 0x7F
  · obtain ⟨hval, rfl, hbytes⟩ := (decodeUnit_one_eq_ok_iff hone).mp h
    refine ⟨(eq_encodeUnit_one_iff (by omega)).mpr ⟨hval, hbytes⟩, ?_⟩
    rw [encodedLength, if_pos (by omega)]
  by_cases htwo : 0xC0 ≤ lead.toNat ∧ lead.toNat < 0xE0
  · obtain ⟨rfl, low, hlow, rfl, hval, hshort⟩ := (decodeUnit_two_eq_ok_iff htwo).mp h
    -- The six low bits come from the continuation, so the unit splits into the same parts.
    have hmod : unit.toNat % 0x40 = low := by omega
    refine ⟨?_, ?_⟩
    · rw [eq_encodeUnit_two_iff (by omega) (by omega), hmod]
      exact ⟨by omega, rfl⟩
    · rw [encodedLength, if_neg (by omega), if_pos (by omega)]
  by_cases hthree : 0xE0 ≤ lead.toNat ∧ lead.toNat < 0xF0
  · obtain ⟨rfl, mid, low, hmid, hlow, rfl, hval, hshort⟩ :=
      (decodeUnit_three_eq_ok_iff hthree).mp h
    have hdiv : unit.toNat / 0x40 % 0x40 = mid := by omega
    have hmod : unit.toNat % 0x40 = low := by omega
    refine ⟨?_, ?_⟩
    · rw [eq_encodeUnit_three_iff hshort, hdiv, hmod]
      exact ⟨by omega, rfl⟩
    · rw [encodedLength, if_neg (by omega), if_neg (by omega)]
  · exact absurd h (decodeUnit_ne_ok hone htwo hthree)

/-- The form of a unit is decoded to the unit, and its length is told. -/
theorem decodeUnit_encodeUnit (h : lead :: bytes = encodeUnit unit ++ rest) :
    decodeUnit lead bytes = .ok (unit, encodedLength unit, rest) := by
  have hlt := unit.toNat_lt
  by_cases hone : 0x01 ≤ unit.toNat ∧ unit.toNat ≤ 0x7F
  · obtain ⟨hlead, hbytes⟩ := (eq_encodeUnit_one_iff hone).mp h
    rw [encodedLength, if_pos hone]
    exact (decodeUnit_one_eq_ok_iff (by omega)).mpr ⟨hlead, rfl, hbytes⟩
  by_cases htwo : unit.toNat ≤ 0x7FF
  · obtain ⟨hlead, hbytes⟩ := (eq_encodeUnit_two_iff hone htwo).mp h
    rw [encodedLength, if_neg hone, if_pos htwo]
    exact (decodeUnit_two_eq_ok_iff (by omega)).mpr
      ⟨rfl, unit.toNat % 0x40, by omega, hbytes, by omega, by omega⟩
  · obtain ⟨hlead, hbytes⟩ := (eq_encodeUnit_three_iff (by omega)).mp h
    rw [encodedLength, if_neg hone, if_neg htwo]
    exact (decodeUnit_three_eq_ok_iff (by omega)).mpr
      ⟨rfl, unit.toNat / 0x40 % 0x40, unit.toNat % 0x40, by omega, by omega, hbytes, by omega,
        by omega⟩

/-- A unit is decoded exactly from its own form, and the length of the form is told. -/
theorem decodeUnit_eq_ok_iff :
    decodeUnit lead bytes = .ok (unit, length, rest) ↔
      lead :: bytes = encodeUnit unit ++ rest ∧ length = encodedLength unit := by
  constructor
  · exact eq_encodeUnit_of_decodeUnit
  · rintro ⟨hform, rfl⟩
    exact decodeUnit_encodeUnit hform

end Forms

/-! ## Strings of units -/

/-- Every form has a first byte. -/
theorem encodeUnit_ne_nil (unit : UInt16) : encodeUnit unit ≠ [] := by
  unfold encodeUnit
  simp only
  split
  · simp
  · split <;> simp

/-- Behind the units found so far, bytes decode to units exactly if they are their encoding. -/
theorem decodeOnto_eq_ok_iff (found : List UInt16) (offset : Nat) (bytes : Bytes)
    {units : List UInt16} :
    decodeOnto found offset bytes = .ok units ↔
      ∃ more, units = found.reverse ++ more ∧ bytes = encode more := by
  fun_induction decodeOnto found offset bytes with
  | case1 found offset =>
    rw [Except.ok.injEq]
    constructor
    · rintro rfl
      exact ⟨[], by simp, rfl⟩
    · rintro ⟨more, rfl, hmore⟩
      cases more with
      | nil => simp
      | cons unit more => simp [encode, encodeUnit_ne_nil] at hmore
  | case2 found offset lead bytes ahead h =>
    constructor
    · intro h'
      cases h'
    · rintro ⟨more, rfl, hmore⟩
      cases more with
      | nil => simp [encode] at hmore
      | cons unit more =>
        rw [encode, List.flatMap_cons] at hmore
        rw [decodeUnit_encodeUnit hmore] at h
        cases h
  | case3 found offset lead bytes unit length rest h hle ih =>
    rw [ih]
    obtain ⟨hform, rfl⟩ := decodeUnit_eq_ok_iff.mp h
    constructor
    · rintro ⟨more, rfl, rfl⟩
      exact ⟨unit :: more, by simp, by rw [hform, encode, encode, List.flatMap_cons]⟩
    · rintro ⟨more, rfl, hmore⟩
      cases more with
      | nil => simp [encode] at hmore
      | cons first more =>
        -- The same bytes decode to one unit only.
        rw [encode, List.flatMap_cons] at hmore
        have hfirst := h.symm.trans (decodeUnit_encodeUnit hmore)
        cases hfirst
        exact ⟨more, by simp, rfl⟩

/-- Bytes decode to units exactly if they are their encoding. -/
theorem decode_eq_ok_iff {bytes : Bytes} {units : List UInt16} :
    decode bytes = .ok units ↔ bytes = encode units := by
  rw [decode, decodeOnto_eq_ok_iff]
  simp

end JavaClass.ModifiedUtf8
