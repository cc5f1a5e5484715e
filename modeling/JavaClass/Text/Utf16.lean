/-!
# UTF-16 code units

Strings of the virtual machine are sequences of 16-bit code units, in which a surrogate may stand
without its partner. This module turns text into units and units back into text.

- `Utf16.ofText`: the units of a text, a supplementary character becoming a surrogate pair.
- `Utf16.scalars`: the characters that a list of units spells, with every unpaired surrogate kept
  apart.
- `Utf16.toText?`: the text, if there is one.
- `Utf16.toTextLossy`: the text with a replacement character for every unpaired surrogate.
-/

namespace JavaClass.Utf16

/-- Whether a unit opens a surrogate pair. -/
def isHigh (unit : UInt16) : Bool := 0xD800 ≤ unit && unit ≤ 0xDBFF

/-- Whether a unit closes a surrogate pair. -/
def isLow (unit : UInt16) : Bool := 0xDC00 ≤ unit && unit ≤ 0xDFFF

/-- Whether a unit is half of a surrogate pair. -/
def isSurrogate (unit : UInt16) : Bool := isHigh unit || isLow unit

/-- The one or two units of a character. -/
def ofChar (c : Char) : List UInt16 :=
  if c.toNat < 0x10000 then [UInt16.ofNat c.toNat]
  else
    let above := c.toNat - 0x10000
    [UInt16.ofNat (0xD800 + above / 0x400), UInt16.ofNat (0xDC00 + above % 0x400)]

/-- The units of a list of characters. -/
def ofChars (text : List Char) : List UInt16 := text.flatMap ofChar

/-- The units of a text. -/
def ofText (text : String) : List UInt16 := ofChars text.toList

/-- The supplementary character that a surrogate pair stands for. -/
def pair (high low : UInt16) : Char :=
  Char.ofNat (0x10000 + (high.toNat - 0xD800) * 0x400 + (low.toNat - 0xDC00))

/-- What a list of units spells: characters, and the surrogates that have no partner. -/
inductive Scalar where
  /-- A character, spelled by one unit or by a surrogate pair. -/
  | char (c : Char)
  /-- A surrogate without its partner. -/
  | unpaired (unit : UInt16)
deriving DecidableEq, Repr

/-- What a unit spells that is not part of a surrogate pair. -/
def single (unit : UInt16) : Scalar :=
  if isSurrogate unit then .unpaired unit else .char (Char.ofNat unit.toNat)

/-- Reads scalars behind the ones found so far, which are held last first. A high surrogate takes
the unit after it only if that one is a low surrogate. -/
def scalarsOnto (found : List Scalar) : List UInt16 → List Scalar
  | [] => found.reverse
  | [unit] => (single unit :: found).reverse
  | unit :: low :: rest =>
    if isHigh unit && isLow low then scalarsOnto (.char (pair unit low) :: found) rest
    -- The unit after it may open a pair of its own.
    else scalarsOnto (single unit :: found) (low :: rest)

/-- What a list of units spells, in order. -/
def scalars (units : List UInt16) : List Scalar := scalarsOnto [] units

/-- The characters of a list of scalars, if none is an unpaired surrogate. -/
def charsOf? (found : List Scalar) : Option (List Char) :=
  found.mapM fun
    | .char c => some c
    | .unpaired _ => none

/-- The text that units spell, if every surrogate has its partner. -/
def toText? (units : List UInt16) : Option String :=
  (charsOf? (scalars units)).map String.ofList

/-- The character that stands for an unpaired surrogate in a text. -/
def replacement : Char := '\uFFFD'

/-- The text that units spell, with a replacement character for every unpaired surrogate. -/
def toTextLossy (units : List UInt16) : String :=
  String.ofList ((scalars units).map fun
    | .char c => c
    | .unpaired _ => replacement)

end JavaClass.Utf16
