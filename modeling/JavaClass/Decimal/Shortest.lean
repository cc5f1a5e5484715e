/-!
# The fewest digits that read back

A binary floating-point number is written in decimal with the fewest digits from which it can be
read back, and among those with the digits nearest to it. All arithmetic is exact, on natural
numbers.

- `Decimal.Format.decode`: the number that a bit pattern stands for.
- `Decimal.Format.reals`: the interval of real numbers that round to a finite number.
- `Decimal.shortest`: the shortest decimal in such an interval.
-/

namespace JavaClass.Decimal

/-- A binary interchange format, given by the widths of two of its fields. -/
structure Format where
  /-- The number of stored bits of the significand. -/
  fractionBits : Nat
  /-- The number of bits of the exponent. -/
  exponentBits : Nat
deriving DecidableEq, Repr

/-- The format of `float` literals. -/
def Format.single : Format := ⟨23, 8⟩

/-- The format of `double` literals. -/
def Format.double : Format := ⟨52, 11⟩

/-- What a bit pattern stands for. A finite number has the magnitude
`significand * 2 ^ exponent`. -/
inductive Number where
  /-- No number, whatever its payload. -/
  | nan
  /-- An infinity. -/
  | infinite (negative : Bool)
  /-- A zero or any other finite number. -/
  | finite (negative : Bool) (significand : Nat) (exponent : Int)
deriving DecidableEq, Repr

/-- The number that a bit pattern stands for. -/
def Format.decode (format : Format) (bits : Nat) : Number :=
  let leading := Nat.pow 2 format.fractionBits
  let exponents := Nat.pow 2 format.exponentBits
  let fraction := bits % leading
  let biased := bits / leading % exponents
  let negative := bits / leading / exponents % 2 = 1
  -- The exponent of the numbers below all normal ones, whose leading bit is not implied.
  let least : Int := 2 - (exponents / 2 : Nat) - format.fractionBits
  if biased = exponents - 1 then
    if fraction = 0 then .infinite negative else .nan
  else if biased = 0 then .finite negative fraction least
  else .finite negative (leading + fraction) (least + biased - 1)

/-- An interval of positive real numbers around a value, in units of a power of two. -/
structure Interval where
  /-- The value that stands for the interval. -/
  value : Nat
  /-- The lower end. -/
  low : Nat
  /-- The upper end. -/
  high : Nat
  /-- The unit is two to this power. -/
  unit : Int
  /-- Whether the ends belong to the interval. -/
  closed : Bool
deriving DecidableEq, Repr

/-- The real numbers that round to `significand * 2 ^ exponent`. They reach half way to the
neighbours, of which the lower one is nearer when the significand is the least of its size; a number
half way between two goes to the even significand. -/
def Format.reals (format : Format) (significand : Nat) (exponent : Int) : Interval where
  value := 4 * significand
  low := 4 * significand - if significand = Nat.pow 2 format.fractionBits then 1 else 2
  high := 4 * significand + 2
  unit := exponent - 2
  closed := significand % 2 = 0

/-- Two factors whose quotient is `2 ^ unit / 10 ^ grid`. -/
def factors (unit grid : Int) : Nat × Nat :=
  (Nat.pow 2 unit.toNat * Nat.pow 10 (-grid).toNat, Nat.pow 2 (-unit).toNat * Nat.pow 10 grid.toNat)

/-- Whether `count * 10 ^ grid` lies in the interval. -/
def Interval.contains (reals : Interval) (grid : Int) (count : Nat) : Bool :=
  let (up, down) := factors reals.unit grid
  if reals.closed then reals.low * up ≤ count * down && count * down ≤ reals.high * up
  else reals.low * up < count * down && count * down < reals.high * up

/-- The multiple of `10 ^ grid` in the interval that is nearest to its value, if one of the two
around the value lies in it. Of two that are equally near, the greater is taken. -/
def Interval.nearest? (reals : Interval) (grid : Int) : Option Nat :=
  let (up, down) := factors reals.unit grid
  let below := reals.value * up / down
  let above := below + 1
  -- A grid has a point in the interval exactly if one of these two lies in it.
  if reals.contains grid below then
    if reals.contains grid above then
      if reals.value * up - below * down < above * down - reals.value * up then some below
      else some above
    else some below
  else if reals.contains grid above then some above else none

/-- Whether the value of the interval is at least `10 ^ power`. -/
def Interval.reaches (reals : Interval) (power : Int) : Bool :=
  let (up, down) := factors reals.unit power
  down ≤ reals.value * up

/-- The power of ten at the first digit of the value. The estimate from its number of binary digits
is off by one at most. -/
def Interval.firstPower (reals : Interval) : Int :=
  let estimate := ((Nat.log2 reals.value + reals.unit) * 1233).fdiv 4096
  if reals.reaches (estimate + 1) then estimate + 1
  else if reals.reaches estimate then estimate
  else estimate - 1

/-- A decimal number, `digits * 10 ^ power`. -/
structure Scaled where
  /-- The digits, as one number. -/
  digits : Nat
  /-- The power of ten of the last digit. -/
  power : Int
deriving DecidableEq, Repr

/-- Drops zeros from the end of the digits, up to a bound on their number. -/
def Scaled.trim : Nat → Scaled → Scaled
  | 0, d => d
  | n + 1, d =>
    if d.digits % 10 = 0 then Scaled.trim n ⟨d.digits / 10, d.power + 1⟩ else d

/-- Tries grids from `grid` down to finer ones, up to a bound on their number. -/
def Interval.search (reals : Interval) : Nat → Int → Scaled
  | 0, grid =>
    let (up, down) := factors reals.unit grid
    ⟨reals.value * up / down, grid⟩
  | n + 1, grid =>
    match reals.nearest? grid with
    | some digits => ⟨digits, grid⟩
    | none => reals.search n (grid - 1)

/-- The digits that suffice for any number of a format. -/
def Format.enoughDigits (format : Format) : Nat := (format.fractionBits + 1) * 3 / 10 + 2

/-- The shortest decimal that reads back as `significand * 2 ^ exponent`, for a significand other
than zero. -/
def shortest (format : Format) (significand : Nat) (exponent : Int) : Scaled :=
  let reals := format.reals significand exponent
  -- On the first grid numbers have one digit, and one digit more on each grid after it.
  (reals.search format.enoughDigits reals.firstPower).trim (format.enoughDigits + 1)

end JavaClass.Decimal
