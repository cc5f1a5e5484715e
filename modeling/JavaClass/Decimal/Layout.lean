import JavaClass.Decimal.Shortest

/-!
# The layout of decimal numbers

`Layout.render` writes a floating-point number with the digits that `Decimal.shortest` chooses. The
layout says which numbers are written with all their places, the others having one digit before the
point and an exponent.
-/

namespace JavaClass.Decimal

/-- The choices of a layout. -/
structure Layout where
  /-- The least power of ten of a first digit that is written positionally. -/
  positionalFrom : Int
  /-- The least power of ten of a first digit above those that are written positionally. -/
  positionalBelow : Int
deriving DecidableEq, Repr

/-- Literals from one ten-thousandth to below ten to the sixteenth are written positionally. -/
def literal : Layout := ⟨-4, 16⟩

/-- Digits with all their places and at least one place after the point; `power` is that of the
first digit. -/
def positional (digits : List Char) (power : Int) : List Char :=
  if power < 0 then '0' :: '.' :: List.replicate (-power - 1).toNat '0' ++ digits
  else
    let whole := power.toNat + 1
    let fraction := digits.drop whole
    (digits.take whole).rightpad whole '0' ++
      '.' :: (if fraction.isEmpty then ['0'] else fraction)

/-- Digits with one place before the point, none after it unless needed, and an exponent. -/
def scientific (digits : List Char) (power : Int) : List Char :=
  let point := match digits with
    | first :: second :: rest => first :: '.' :: second :: rest
    | short => short
  point ++ 'e' :: (toString power).toList

/-- The magnitude of a finite number. -/
def Layout.magnitude (layout : Layout) (format : Format) (significand : Nat) (exponent : Int) :
    List Char :=
  if significand = 0 then ['0', '.', '0']
  else
    let decimal := shortest format significand exponent
    let digits := Nat.toDigits 10 decimal.digits
    let power := decimal.power + digits.length - 1
    if layout.positionalFrom ≤ power && power < layout.positionalBelow then
      positional digits power
    else scientific digits power

/-- The text of a bit pattern. -/
def Layout.render (layout : Layout) (format : Format) (bits : Nat) : String :=
  match format.decode bits with
  | .nan => "NaN"
  | .infinite negative => if negative then "-inf" else "inf"
  | .finite negative significand exponent =>
    let magnitude := layout.magnitude format significand exponent
    String.ofList (if negative then '-' :: magnitude else magnitude)

end JavaClass.Decimal
