import JavaClass.Text.Utf16
import Mathlib.Tactic.Common

/-!
# Text and its code units

A text has one list of units, and a list of units without unpaired surrogates spells one text.

- `Utf16.flatMap_units_scalars`: what units spell is spelled by these units alone.
- `Utf16.scalars_ofChars`: the units of characters spell the characters.
- `Utf16.toText?_eq_some_iff`: units spell a text exactly if they are its units.
- `Utf16.replacement_mem_toTextLossy`: what is shown for units that are no text shows it.
-/

namespace JavaClass.Utf16

theorem isHigh_iff {unit : UInt16} :
    isHigh unit = true ↔ 0xD800 ≤ unit.toNat ∧ unit.toNat ≤ 0xDBFF := by
  simp [isHigh, UInt16.le_iff_toNat_le]

theorem isLow_iff {unit : UInt16} :
    isLow unit = true ↔ 0xDC00 ≤ unit.toNat ∧ unit.toNat ≤ 0xDFFF := by
  simp [isLow, UInt16.le_iff_toNat_le]

theorem isSurrogate_iff {unit : UInt16} :
    isSurrogate unit = true ↔ 0xD800 ≤ unit.toNat ∧ unit.toNat ≤ 0xDFFF := by
  rw [isSurrogate, Bool.or_eq_true, isHigh_iff, isLow_iff]
  omega

/-- A code point that is no surrogate is the code point of its character. -/
theorem toNat_ofNat_of_valid {n : Nat} (h : n < 0xD800 ∨ (0xDFFF < n ∧ n < 0x110000)) :
    (Char.ofNat n).toNat = n := by
  have hchar : Char.ofNat n = Char.ofNatAux n h := dif_pos h
  rw [hchar]
  rfl

/-- No character is a surrogate. -/
theorem valid_toNat (c : Char) :
    c.toNat < 0xD800 ∨ (0xDFFF < c.toNat ∧ c.toNat < 0x110000) := c.valid

/-! ## Single characters -/

/-- A surrogate pair is spelled by its two halves. -/
theorem ofChar_pair {high low : UInt16} (hhigh : isHigh high = true) (hlow : isLow low = true) :
    ofChar (pair high low) = [high, low] := by
  rw [isHigh_iff] at hhigh
  rw [isLow_iff] at hlow
  -- Two halves of ten bits each make up a code point past the ones of a single unit.
  have hc : (pair high low).toNat =
      0x10000 + (high.toNat - 0xD800) * 0x400 + (low.toNat - 0xDC00) :=
    toNat_ofNat_of_valid (by omega)
  rw [ofChar, if_neg (by omega)]
  simp only [List.cons.injEq, and_true, ← UInt16.toNat_inj, UInt16.toNat_ofNat']
  omega

/-- A unit that is no surrogate spells the character with that code point. -/
theorem ofChar_ofNat {unit : UInt16} (h : isSurrogate unit = false) :
    ofChar (Char.ofNat unit.toNat) = [unit] := by
  have hlt := unit.toNat_lt
  rw [Bool.eq_false_iff, ne_eq, isSurrogate_iff] at h
  have hc : (Char.ofNat unit.toNat).toNat = unit.toNat := toNat_ofNat_of_valid (by omega)
  rw [ofChar, hc, if_pos hlt, UInt16.ofNat_toNat]

/-- A character of one unit is spelled by a unit that is no surrogate. -/
theorem single_ofNat {c : Char} (h : c.toNat < 0x10000) :
    isSurrogate (UInt16.ofNat c.toNat) = false ∧ single (UInt16.ofNat c.toNat) = .char c := by
  have hvalid := valid_toNat c
  have hunit : (UInt16.ofNat c.toNat).toNat = c.toNat := UInt16.toNat_ofNat_of_lt h
  have hno : isSurrogate (UInt16.ofNat c.toNat) = false := by
    rw [Bool.eq_false_iff, ne_eq, isSurrogate_iff, hunit]
    omega
  refine ⟨hno, ?_⟩
  rw [single, hno, hunit, Char.ofNat_toNat]
  rfl

/-- A character of two units is spelled by a surrogate pair. -/
theorem pair_ofNat {c : Char} (h : 0x10000 ≤ c.toNat) :
    ∃ high low, ofChar c = [high, low] ∧ isHigh high = true ∧ isLow low = true ∧
      pair high low = c := by
  have hvalid := valid_toNat c
  -- The code point less `0x10000` is split into its high and its low ten bits.
  refine ⟨UInt16.ofNat (0xD800 + (c.toNat - 0x10000) / 0x400),
    UInt16.ofNat (0xDC00 + (c.toNat - 0x10000) % 0x400), ?_, ?_, ?_, ?_⟩
  · rw [ofChar, if_neg (by omega)]
  · rw [isHigh_iff, UInt16.toNat_ofNat']
    omega
  · rw [isLow_iff, UInt16.toNat_ofNat']
    omega
  · have hn : 0x10000 +
        ((UInt16.ofNat (0xD800 + (c.toNat - 0x10000) / 0x400)).toNat - 0xD800) * 0x400 +
        ((UInt16.ofNat (0xDC00 + (c.toNat - 0x10000) % 0x400)).toNat - 0xDC00) = c.toNat := by
      rw [UInt16.toNat_ofNat', UInt16.toNat_ofNat']
      omega
    rw [pair, hn, Char.ofNat_toNat]

/-! ## Lists of units -/

/-- What was held back of the scalars stands in front of those that are still read. -/
theorem scalarsOnto_append (found more : List Scalar) (units : List UInt16) :
    scalarsOnto (found ++ more) units = more.reverse ++ scalarsOnto found units := by
  fun_induction scalarsOnto found units with
  | case1 found => simp [scalarsOnto]
  | case2 found unit => simp [scalarsOnto]
  | case3 found unit low rest hpair ih =>
    rw [scalarsOnto, if_pos hpair, ← ih]
    rfl
  | case4 found unit low rest hpair ih =>
    rw [scalarsOnto, if_neg hpair, ← ih]
    rfl

@[simp]
theorem scalars_nil : scalars [] = [] := rfl

/-- A surrogate pair is read as one character. -/
theorem scalars_pair {high low : UInt16} (rest : List UInt16) (hhigh : isHigh high = true)
    (hlow : isLow low = true) :
    scalars (high :: low :: rest) = .char (pair high low) :: scalars rest := by
  rw [scalars, scalarsOnto, if_pos (by rw [hhigh, hlow]; rfl)]
  exact scalarsOnto_append [] [_] rest

/-- A unit that opens no surrogate pair is read on its own. -/
theorem scalars_single {unit : UInt16} {rest : List UInt16}
    (h : ∀ low, rest.head? = some low → (isHigh unit && isLow low) = false) :
    scalars (unit :: rest) = single unit :: scalars rest := by
  cases rest with
  | nil => rfl
  | cons low rest =>
    rw [scalars, scalarsOnto, if_neg (by rw [h low rfl]; simp)]
    exact scalarsOnto_append [] [_] (low :: rest)

/-- The units that spell a scalar. -/
def Scalar.units : Scalar → List UInt16
  | .char c => ofChar c
  | .unpaired unit => [unit]

/-- What a unit spells on its own is spelled by it. -/
@[simp]
theorem units_single (unit : UInt16) : (single unit).units = [unit] := by
  unfold single
  split
  · rfl
  · next h => exact ofChar_ofNat (by simpa using h)

/-- What units spell is spelled by these units alone. -/
theorem flatMap_units_scalars (units : List UInt16) :
    (scalars units).flatMap Scalar.units = units := by
  -- By length, as a pair takes two units at once.
  induction hn : units.length using Nat.strongRecOn generalizing units with
  | _ n ih =>
    match units with
    | [] => rfl
    | [unit] =>
      rw [scalars_single (by simp), List.flatMap_cons, units_single]
      rfl
    | unit :: low :: rest =>
      by_cases hpair : (isHigh unit && isLow low) = true
      · obtain ⟨hhigh, hlow⟩ := Bool.and_eq_true_iff.mp hpair
        rw [scalars_pair rest hhigh hlow, List.flatMap_cons, Scalar.units,
          ofChar_pair hhigh hlow, ih rest.length (by simp at hn; omega) rest rfl]
        rfl
      · rw [scalars_single (by simpa using hpair), List.flatMap_cons, units_single,
          ih (low :: rest).length (by simp at hn ⊢; omega) (low :: rest) rfl]
        rfl

/-- The units of a character spell the character, whatever follows. -/
theorem scalars_ofChar_append (c : Char) (rest : List UInt16) :
    scalars (ofChar c ++ rest) = .char c :: scalars rest := by
  by_cases h : c.toNat < 0x10000
  · obtain ⟨hno, hsingle⟩ := single_ofNat h
    -- A character of one unit is no high surrogate, so nothing that follows can join it.
    have hhigh : isHigh (UInt16.ofNat c.toNat) = false := by
      rw [isSurrogate, Bool.or_eq_false_iff] at hno
      exact hno.1
    rw [ofChar, if_pos h, List.singleton_append,
      scalars_single (by intro low _; rw [hhigh, Bool.false_and]), hsingle]
  · obtain ⟨high, low, hunits, hhigh, hlow, hpair⟩ := pair_ofNat (Nat.le_of_not_lt h)
    rw [hunits, List.cons_append, List.singleton_append, scalars_pair rest hhigh hlow, hpair]

/-- The units of characters spell the characters. -/
theorem scalars_ofChars (text : List Char) : scalars (ofChars text) = text.map .char := by
  induction text with
  | nil => rfl
  | cons c text ih =>
    rw [ofChars, List.flatMap_cons, scalars_ofChar_append, List.map_cons]
    exact congrArg _ ih

/-! ## Text -/

/-- Scalars are characters if none is an unpaired surrogate. -/
theorem charsOf?_eq_some_iff {found : List Scalar} {text : List Char} :
    charsOf? found = some text ↔ found = text.map .char := by
  unfold charsOf?
  induction found generalizing text with
  | nil => cases text <;> simp
  | cons scalar found ih =>
    cases scalar with
    | char c => cases text <;> simp [Option.bind_eq_some_iff, ih, and_comm]
    | unpaired unit => cases text <;> simp

/-- Units spell a text exactly if they are its units. -/
theorem toText?_eq_some_iff {units : List UInt16} {text : String} :
    toText? units = some text ↔ units = ofText text := by
  rw [toText?, Option.map_eq_some_iff]
  constructor
  · rintro ⟨chars, hchars, rfl⟩
    rw [charsOf?_eq_some_iff] at hchars
    -- The units are those of the scalars that they spell, all of which are characters.
    rw [← flatMap_units_scalars units, hchars, ofText, String.toList_ofList, ofChars,
      List.flatMap_map]
    rfl
  · rintro rfl
    refine ⟨text.toList, ?_, String.ofList_toList⟩
    rw [charsOf?_eq_some_iff, ofText, scalars_ofChars]

/-- Scalars are no characters only if one is an unpaired surrogate. -/
theorem exists_unpaired_of_charsOf? {found : List Scalar} (h : charsOf? found = none) :
    ∃ unit, .unpaired unit ∈ found := by
  induction found with
  | nil => cases h
  | cons scalar found ih =>
    cases scalar with
    | char c =>
      have hothers : charsOf? found = none := by
        refine Option.eq_none_iff_forall_ne_some.mpr fun text htext => ?_
        have hall : charsOf? (.char c :: found) = some (c :: text) := by
          rw [charsOf?_eq_some_iff, charsOf?_eq_some_iff.mp htext, List.map_cons]
        rw [h] at hall
        cases hall
      obtain ⟨unit, hmem⟩ := ih hothers
      exact ⟨unit, List.mem_cons_of_mem _ hmem⟩
    | unpaired unit => exact ⟨unit, List.mem_cons_self⟩

/-- Units that are no text leave a replacement character in what is shown for them. -/
theorem replacement_mem_toTextLossy {units : List UInt16} (h : toText? units = none) :
    replacement ∈ (toTextLossy units).toList := by
  rw [toText?, Option.map_eq_none_iff] at h
  obtain ⟨unit, hmem⟩ := exists_unpaired_of_charsOf? h
  rw [toTextLossy, String.toList_ofList, List.mem_map]
  exact ⟨.unpaired unit, hmem, rfl⟩

end JavaClass.Utf16
