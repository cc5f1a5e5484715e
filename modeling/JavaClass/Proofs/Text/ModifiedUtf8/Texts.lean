import JavaClass.Proofs.Text.ModifiedUtf8.Refusals

/-!
# Texts in modified UTF-8

A text has one form. Bytes that encode units without a text are refused at the first byte of the
first surrogate that has no partner. The decoder does not look for this byte: it has only the units
left when it finds the surrogate, and adds up the forms of the characters in front of it.

- `Utf16.IsUnpaired`, `Utf16.IsFirstUnpaired`: surrogates without a partner, told by the units next
  to them and not by reading the units in order.
- `Utf16.ofChars_or_isFirstUnpaired`: units are those of characters, or one of them is the first
  surrogate without a partner, behind those of characters.
- `ModifiedUtf8.decodeText_eq_ok_iff`, `ModifiedUtf8.decodeText_eq_error_iff`: what is decoded, and
  what is refused where.
- `ModifiedUtf8.isExactForTexts`: texts have one form each, and every other string of units is
  refused at its first unpaired surrogate.
-/

namespace JavaClass

/-! ## Surrogates without a partner -/

namespace Utf16

/-- A unit between others is a surrogate that does not open a pair with the unit after it and does
not close one with the unit before it. -/
structure IsUnpaired (before : List UInt16) (unit : UInt16) (after : List UInt16) : Prop where
  isSurrogate : isSurrogate unit = true
  not_opens : ∀ low, after.head? = some low → ¬ (isHigh unit = true ∧ isLow low = true)
  not_closes : ∀ high, before.getLast? = some high → ¬ (isHigh high = true ∧ isLow unit = true)

/-- A surrogate without a partner, in front of which there is no other. -/
structure IsFirstUnpaired (before : List UInt16) (unit : UInt16) (after : List UInt16) : Prop
    extends IsUnpaired before unit after where
  first : ∀ earlier other later, before ++ unit :: after = earlier ++ other :: later →
    earlier.length < before.length → ¬ IsUnpaired earlier other later

variable {before after : List UInt16} {unit : UInt16}

/-- A surrogate without a partner has none if fewer units stand before it. -/
theorem IsUnpaired.of_append {front : List UInt16} (h : IsUnpaired (front ++ before) unit after) :
    IsUnpaired before unit after where
  isSurrogate := h.isSurrogate
  not_opens := h.not_opens
  not_closes high hlast := h.not_closes high (by rw [List.getLast?_append, hlast, Option.some_or])

/-- There is one first surrogate without a partner. -/
theorem IsFirstUnpaired.unique {before' after' : List UInt16} {unit' : UInt16}
    (h : IsFirstUnpaired before unit after) (h' : IsFirstUnpaired before' unit' after')
    (heq : before ++ unit :: after = before' ++ unit' :: after') :
    before = before' ∧ unit = unit' ∧ after = after' := by
  have hle : before'.length ≤ before.length := by
    by_contra hlt
    exact h'.first _ _ _ heq.symm (Nat.lt_of_not_le hlt) h.toIsUnpaired
  have hge : before.length ≤ before'.length := by
    by_contra hlt
    exact h.first _ _ _ heq (Nat.lt_of_not_le hlt) h'.toIsUnpaired
  obtain ⟨hbefore, hrest⟩ := List.append_inj heq (Nat.le_antisymm hge hle)
  exact ⟨hbefore, List.cons.inj hrest⟩

/-! ### The units of characters -/

theorem ofChars_cons (c : Char) (text : List Char) :
    ofChars (c :: text) = ofChar c ++ ofChars text :=
  List.flatMap_cons

/-- A character has one unit that is no surrogate, or a surrogate pair. -/
theorem ofChar_cases (c : Char) :
    (∃ unit, ofChar c = [unit] ∧ isSurrogate unit = false) ∨
      ∃ high low, ofChar c = [high, low] ∧ isHigh high = true ∧ isLow low = true := by
  by_cases hc : c.toNat < 0x10000
  · exact .inl ⟨UInt16.ofNat c.toNat, by rw [ofChar, if_pos hc], (single_ofNat hc).1⟩
  · obtain ⟨high, low, hunits, hhigh, hlow, -⟩ := pair_ofNat (Nat.le_of_not_lt hc)
    exact .inr ⟨high, low, hunits, hhigh, hlow⟩

/-- No unit closes a pair and opens one, too. -/
theorem isHigh_eq_false_of_isLow (h : isLow unit = true) : isHigh unit = false := by
  rw [isLow_iff] at h
  rw [Bool.eq_false_iff, ne_eq, isHigh_iff]
  omega

/-- The units of characters do not end in a unit that opens a pair. -/
theorem isHigh_getLast_ofChars {text : List Char} {last : UInt16}
    (h : (ofChars text).getLast? = some last) : isHigh last = false := by
  induction text with
  | nil => cases h
  | cons c text ih =>
    rw [ofChars_cons, List.getLast?_append] at h
    cases hlast : (ofChars text).getLast? with
    | some found =>
      rw [hlast, Option.some_or] at h
      exact ih (hlast.trans h)
    | none =>
      -- The last unit is the last one of this character.
      rw [hlast, Option.none_or] at h
      obtain ⟨unit, hunits, hno⟩ | ⟨high, low, hunits, -, hlow⟩ := ofChar_cases c
      · rw [hunits] at h
        cases h
        exact (Bool.or_eq_false_iff.mp hno).1
      · rw [hunits] at h
        cases h
        exact isHigh_eq_false_of_isLow hlow

/-- All surrogates among the units of characters have their partners, whatever follows. -/
theorem not_isUnpaired_of_lt {text : List Char} {rest earlier later : List UInt16} {other : UInt16}
    (heq : ofChars text ++ rest = earlier ++ other :: later)
    (hlt : earlier.length < (ofChars text).length) : ¬ IsUnpaired earlier other later := by
  intro h
  induction text generalizing earlier with
  | nil => exact absurd hlt (Nat.not_lt_zero _)
  | cons c text ih =>
    rw [ofChars_cons, List.append_assoc] at heq
    rw [ofChars_cons, List.length_append] at hlt
    -- Past the units of the first character, the others decide.
    have hpast {front : List UInt16} (hearlier : earlier = ofChar c ++ front) : False := by
      subst hearlier
      rw [List.append_assoc, List.append_cancel_left_eq] at heq
      rw [List.length_append] at hlt
      exact ih heq (by omega) h.of_append
    obtain ⟨unit, hunits, hno⟩ | ⟨high, low, hunits, hhigh, hlow⟩ := ofChar_cases c
    · rw [hunits] at heq hpast
      match earlier with
      | [] =>
        obtain ⟨rfl, -⟩ := List.cons.inj heq
        exact absurd h.isSurrogate (by rw [hno]; decide)
      | first :: front =>
        obtain ⟨rfl, -⟩ := List.cons.inj heq
        exact hpast rfl
    · rw [hunits] at heq hpast
      match earlier with
      | [] =>
        obtain ⟨rfl, rfl⟩ := List.cons.inj heq
        exact h.not_opens low rfl ⟨hhigh, hlow⟩
      | [first] =>
        obtain ⟨rfl, htail⟩ := List.cons.inj heq
        obtain ⟨rfl, -⟩ := List.cons.inj htail
        exact h.not_closes high rfl ⟨hhigh, hlow⟩
      | first :: second :: front =>
        obtain ⟨rfl, htail⟩ := List.cons.inj heq
        obtain ⟨rfl, -⟩ := List.cons.inj htail
        exact hpast rfl

/-- No unit of characters is a surrogate without a partner. -/
theorem not_isUnpaired_of_ofChars {text : List Char} {earlier later : List UInt16} {other : UInt16}
    (heq : ofChars text = earlier ++ other :: later) : ¬ IsUnpaired earlier other later := by
  have hlt : earlier.length < (ofChars text).length := by
    rw [heq, List.length_append, List.length_cons]
    omega
  rw [← List.append_nil (ofChars text)] at heq
  exact not_isUnpaired_of_lt heq hlt

/-! ### Where reading stops to find characters -/

/-- The units of characters spell them in front of whatever follows. -/
theorem scalars_ofChars_append (text : List Char) (rest : List UInt16) :
    scalars (ofChars text ++ rest) = text.map .char ++ scalars rest := by
  induction text with
  | nil => rfl
  | cons c text ih =>
    rw [ofChars_cons, List.append_assoc, scalars_ofChar_append, ih, List.map_cons, List.cons_append]

/-- A unit that is read as a surrogate without a partner is one, and opens no pair. -/
theorem of_scalars_eq_unpaired {found : List Scalar}
    (h : scalars (unit :: after) = .unpaired unit :: found) :
    isSurrogate unit = true ∧
      ∀ low, after.head? = some low → ¬ (isHigh unit = true ∧ isLow low = true) := by
  have hopens : ∀ low, after.head? = some low → ¬ (isHigh unit = true ∧ isLow low = true) := by
    rintro low hlow ⟨hhigh, hisLow⟩
    obtain ⟨rest, rfl⟩ := List.head?_eq_some_iff.mp hlow
    rw [scalars_pair rest hhigh hisLow] at h
    cases h
  refine ⟨?_, hopens⟩
  rw [scalars_single (by simpa using hopens), List.cons.injEq, single] at h
  by_contra hno
  rw [if_neg hno] at h
  cases h.1

/-- Scalars are characters, up to the first that is none. -/
theorem Scalar.map_char_or_unpaired (found : List Scalar) :
    (∃ text : List Char, found = text.map .char) ∨
      ∃ (text : List Char) (unit : UInt16) (more : List Scalar),
        found = text.map .char ++ .unpaired unit :: more := by
  induction found with
  | nil => exact .inl ⟨[], rfl⟩
  | cons scalar found ih =>
    cases scalar with
    | unpaired unit => exact .inr ⟨[], unit, found, rfl⟩
    | char c =>
      obtain ⟨text, rfl⟩ | ⟨text, unit, more, rfl⟩ := ih
      · exact .inl ⟨c :: text, rfl⟩
      · exact .inr ⟨c :: text, unit, more, rfl⟩

/-- Units are those of characters, or one of them is the first surrogate without a partner, behind
those of characters. -/
theorem ofChars_or_isFirstUnpaired (units : List UInt16) :
    (∃ text, units = ofChars text) ∨
      ∃ text unit after, units = ofChars text ++ unit :: after ∧
        IsFirstUnpaired (ofChars text) unit after := by
  have hunits := flatMap_units_scalars units
  obtain ⟨text, hfound⟩ | ⟨text, unit, more, hfound⟩ := Scalar.map_char_or_unpaired (scalars units)
  · rw [hfound, List.flatMap_map] at hunits
    exact .inl ⟨text, hunits.symm⟩
  · rw [hfound, List.flatMap_append, List.flatMap_map, List.flatMap_cons] at hunits
    have hsplit : units = ofChars text ++ unit :: more.flatMap Scalar.units := hunits.symm
    -- Behind the characters, the first thing that is read is the surrogate.
    rw [hsplit, scalars_ofChars_append, List.append_cancel_left_eq] at hfound
    obtain ⟨hsurrogate, hopens⟩ := of_scalars_eq_unpaired hfound
    refine .inr ⟨text, unit, more.flatMap Scalar.units, hsplit, ⟨hsurrogate, hopens, ?_⟩, ?_⟩
    · rintro high hlast ⟨hhigh, -⟩
      rw [isHigh_getLast_ofChars hlast] at hhigh
      cases hhigh
    · intro earlier other later heq hlt
      exact not_isUnpaired_of_lt heq hlt

/-- The units in front of the first surrogate without a partner are those of characters. -/
theorem IsFirstUnpaired.exists_ofChars (h : IsFirstUnpaired before unit after) :
    ∃ text, before = ofChars text ∧
      ∃ more, scalars (before ++ unit :: after) = text.map .char ++ .unpaired unit :: more := by
  obtain ⟨text, hunits⟩ | ⟨text, unit', after', hunits, hfirst⟩ :=
    ofChars_or_isFirstUnpaired (before ++ unit :: after)
  · exact absurd h.toIsUnpaired (not_isUnpaired_of_ofChars hunits.symm)
  · obtain ⟨rfl, rfl, rfl⟩ := h.unique hfirst hunits
    refine ⟨text, rfl, scalars after, ?_⟩
    have hsingle : single unit = .unpaired unit := if_pos h.isSurrogate
    rw [scalars_ofChars_append, scalars_single (by simpa using h.not_opens), hsingle]

end Utf16

/-! ## Texts as bytes -/

namespace ModifiedUtf8

open Constant (textOfBytes unitsOfBytes)
open Utf16 (IsUnpaired IsFirstUnpaired)

theorem encode_append (first second : List UInt16) :
    encode (first ++ second) = encode first ++ encode second := List.flatMap_append

/-- Characters are put behind those that were found before, and their bytes are counted. -/
theorem textOnto_append (found : List Char) (offset : Nat) (text : List Char)
    (rest : List Utf16.Scalar) :
    textOnto found offset (text.map .char ++ rest) =
      textOnto (text.reverse ++ found) (offset + (encode (Utf16.ofChars text)).length) rest := by
  induction text generalizing found offset with
  | nil => rfl
  | cons c text ih =>
    rw [List.map_cons, List.cons_append, textOnto, ih, Utf16.ofChars_cons, encode_append,
      List.length_append, length_encode (Utf16.ofChar c), Nat.add_assoc, List.reverse_cons,
      List.append_assoc, List.singleton_append]

/-- The encoding of units is decoded to the characters that they spell. -/
theorem decodeText_encode (units : List UInt16) :
    decodeText (encode units) = textOnto [] 0 (Utf16.scalars units) := by
  rw [decodeText, decode_eq_ok_iff.mpr rfl]
  rfl

/-- The form of a text is decoded to the text. -/
theorem decodeText_encodeText (text : String) : decodeText (encodeText text) = .ok text := by
  rw [encodeText, decodeText_encode, Utf16.ofText, Utf16.scalars_ofChars,
    ← List.append_nil (List.map _ _), textOnto_append, List.append_nil, textOnto,
    List.reverse_reverse, String.ofList_toList]

/-- The encoding of units that are no text is refused behind the encoding of those in front of the
first surrogate without a partner. -/
theorem decodeText_encode_of_isFirstUnpaired {before after : List UInt16} {unit : UInt16}
    (h : IsFirstUnpaired before unit after) :
    decodeText (encode (before ++ unit :: after)) = .error (encode before).length := by
  obtain ⟨text, rfl, more, hscalars⟩ := h.exists_ofChars
  rw [decodeText_encode, hscalars, textOnto_append, textOnto, Nat.zero_add]

/-- Bytes are decoded to a text, or refused where they are no encoding of units, or refused at the
first surrogate without a partner. -/
theorem decodeText_cases (bytes : Bytes) :
    (∃ text, bytes = encodeText text ∧ decodeText bytes = .ok text) ∨
      (∃ position, decode bytes = .error position ∧ decodeText bytes = .error position) ∨
      ∃ before unit after, bytes = encode (before ++ unit :: after) ∧
        IsFirstUnpaired before unit after ∧ decodeText bytes = .error (encode before).length := by
  cases hdecode : decode bytes with
  | error position =>
    refine .inr (.inl ⟨position, rfl, ?_⟩)
    rw [decodeText, hdecode]
    rfl
  | ok units =>
    obtain rfl := decode_eq_ok_iff.mp hdecode
    obtain ⟨text, rfl⟩ | ⟨text, unit, after, rfl, hfirst⟩ := Utf16.ofChars_or_isFirstUnpaired units
    · have hbytes : encode (Utf16.ofChars text) = encodeText (String.ofList text) := by
        rw [encodeText, Utf16.ofText, String.toList_ofList]
      exact .inl ⟨String.ofList text, hbytes, hbytes ▸ decodeText_encodeText _⟩
    · exact .inr (.inr ⟨_, unit, after, rfl, hfirst, decodeText_encode_of_isFirstUnpaired hfirst⟩)

/-- Bytes are decoded to a text exactly if they are its form. -/
theorem decodeText_eq_ok_iff {bytes : Bytes} {text : String} :
    decodeText bytes = .ok text ↔ bytes = encodeText text := by
  constructor
  · intro h
    obtain ⟨found, hbytes, hfound⟩ | ⟨_, -, herror⟩ | ⟨_, _, _, -, -, herror⟩ :=
      decodeText_cases bytes
    · obtain rfl := Except.ok.inj (hfound.symm.trans h)
      exact hbytes
    · cases herror.symm.trans h
    · cases herror.symm.trans h
  · rintro rfl
    exact decodeText_encodeText text

/-- Bytes are refused where they are no encoding of units, or else at the first surrogate without a
partner. -/
theorem decodeText_eq_error_iff {bytes : Bytes} {position : Nat} :
    decodeText bytes = .error position ↔
      decode bytes = .error position ∨
        ∃ before unit after, bytes = encode (before ++ unit :: after) ∧
          IsFirstUnpaired before unit after ∧ position = (encode before).length := by
  constructor
  · intro h
    obtain ⟨_, -, hok⟩ | ⟨_, hdecode, herror⟩ | ⟨before, unit, after, hbytes, hfirst, herror⟩ :=
      decodeText_cases bytes
    · cases hok.symm.trans h
    · obtain rfl := Except.error.inj (herror.symm.trans h)
      exact .inl hdecode
    · obtain rfl := Except.error.inj (herror.symm.trans h)
      exact .inr ⟨before, unit, after, hbytes, hfirst, rfl⟩
  · rintro (hdecode | ⟨before, unit, after, rfl, hfirst, rfl⟩)
    · rw [decodeText, hdecode]
      rfl
    · exact decodeText_encode_of_isFirstUnpaired hfirst

/-! ## Texts of class files -/

theorem textOfBytes_eq_ok_iff {bytes : Bytes} {text : String} :
    textOfBytes bytes = .ok text ↔ bytes = encodeText text := by
  rw [← decodeText_eq_ok_iff, textOfBytes]
  cases decodeText bytes <;> simp [Except.mapError]

theorem textOfBytes_eq_error_iff {bytes : Bytes} {cause : Error} :
    textOfBytes bytes = .error cause ↔
      ∃ position, decodeText bytes = .error position ∧ cause = .notModifiedUtf8 position := by
  rw [textOfBytes]
  cases decodeText bytes <;> simp [Except.mapError, eq_comm]

/-- What modified UTF-8 makes of a text, and of some bytes. -/
structure IsExactForTexts (text : String) (bytes : Bytes) : Prop where
  /-- What is encoded is decoded again. -/
  decode_encode : textOfBytes (encodeText text) = .ok text
  /-- What is decoded is encoded as it was. -/
  encode_decode : textOfBytes bytes = .ok text → encodeText text = bytes
  /-- If one of the units that the bytes encode is a surrogate without a partner, the bytes are
  refused where the form of the first such unit stands. -/
  unpaired : ∀ units, unitsOfBytes bytes = .ok units →
    (∃ before unit after, units = before ++ unit :: after ∧ IsUnpaired before unit after) →
    ∃ before unit after, units = before ++ unit :: after ∧ IsFirstUnpaired before unit after ∧
      bytes = encode before ++ (encodeUnit unit ++ encode after) ∧
      textOfBytes bytes = .error (.notModifiedUtf8 (encode before).length)
  /-- Nothing else is refused but what is no encoding of units, which is refused as such. -/
  error : ∀ cause, textOfBytes bytes = .error cause → unitsOfBytes bytes = .error cause ∨
    ∃ before unit after, unitsOfBytes bytes = .ok (before ++ unit :: after) ∧
      IsFirstUnpaired before unit after ∧ cause = .notModifiedUtf8 (encode before).length

/-- Texts have one form each in modified UTF-8. Any other string of units is refused where its first
surrogate without a partner stands. -/
theorem isExactForTexts (text : String) (bytes : Bytes) : IsExactForTexts text bytes where
  decode_encode := textOfBytes_eq_ok_iff.mpr rfl
  encode_decode := fun h => (textOfBytes_eq_ok_iff.mp h).symm
  unpaired := by
    rintro units hunits ⟨earlier, other, later, rfl, hother⟩
    obtain rfl := unitsOfBytes_eq_ok_iff.mp hunits
    obtain ⟨found, heq⟩ | ⟨found, unit, after, heq, hfirst⟩ :=
      Utf16.ofChars_or_isFirstUnpaired (earlier ++ other :: later)
    · -- There would be no surrogate without a partner.
      exact absurd hother (Utf16.not_isUnpaired_of_ofChars heq.symm)
    · refine ⟨Utf16.ofChars found, unit, after, heq, hfirst, ?_, ?_⟩
      · rw [heq, encode_append, encode_cons]
      · rw [heq, textOfBytes_eq_error_iff]
        exact ⟨_, decodeText_encode_of_isFirstUnpaired hfirst, rfl⟩
  error := by
    intro cause h
    obtain ⟨position, hposition, rfl⟩ := textOfBytes_eq_error_iff.mp h
    obtain hdecode | ⟨before, unit, after, rfl, hfirst, rfl⟩ := decodeText_eq_error_iff.mp hposition
    · exact .inl (unitsOfBytes_eq_error_iff.mpr ⟨position, hdecode, rfl⟩)
    · exact .inr ⟨before, unit, after, unitsOfBytes_eq_ok_iff.mpr rfl, hfirst, rfl⟩

/-- A letter, a surrogate pair, the zero unit, and two high surrogates in front of a low one. -/
def highHighLow : List UInt16 := [0x61, 0xD83D, 0xDE00, 0, 0xD83D, 0xD83D, 0xDE00]

/-- Of two high surrogates in front of a low one, the first has no partner: the other one opens a
pair. It is refused behind the nine bytes of what stands in front of it. -/
theorem isExactForTexts_highHighLow :
    textOfBytes (encode highHighLow) = .error (.notModifiedUtf8 9) ∧
      ∃ before unit after, highHighLow = before ++ unit :: after ∧
        IsFirstUnpaired before unit after ∧ (encode before).length = 9 := by
  have herror : textOfBytes (encode highHighLow) = .error (.notModifiedUtf8 9) := by decide +kernel
  have hunpaired : IsUnpaired [0x61, 0xD83D, 0xDE00, 0] 0xD83D [0xD83D, 0xDE00] := by
    -- The units beside it are known, so there is one case each.
    refine ⟨by decide, fun low hhead => ?_, fun high hlast => ?_⟩
    · cases hhead
      decide
    · cases hlast
      decide
  obtain ⟨before, unit, after, hunits, hfirst, -, hrefused⟩ :=
    (isExactForTexts "" (encode highHighLow)).unpaired highHighLow
      (unitsOfBytes_eq_ok_iff.mpr rfl) ⟨_, _, _, rfl, hunpaired⟩
  rw [herror, Except.error.injEq, Error.notModifiedUtf8.injEq] at hrefused
  exact ⟨herror, before, unit, after, hunits, hfirst, hrefused.symm⟩

end ModifiedUtf8

end JavaClass
