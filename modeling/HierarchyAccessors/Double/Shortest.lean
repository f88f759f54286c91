import HierarchyAccessors.Double.Basic

/-!
# Shortest decimals

A double is written with the fewest digits that still read back as it, and with those nearest to
it among them; of two that are equally near the larger is taken. The decimals that read back as a
magnitude lie between the middles to its two neighbours, and on the middles if its rank is even
(`readsBack`). They are counted in grains, so fine that the first seventeen digits of every
magnitude are whole numbers of them.
-/

namespace HierarchyAccessors.Double

/-- The grains in one are a power of ten; this is its exponent. -/
def grainPlaces : Nat := 341

/-- Decimals of at most so many digits are tried. -/
def maxDigits : Nat := 17

/-- A number of half units, in parts so small that each half unit and each grain is a whole number
of them. -/
def partsOfHalfUnits (n : Nat) : Nat :=
  n * Nat.pow 10 grainPlaces

/-- A number of grains in the same parts. -/
def partsOfGrains (n : Nat) : Nat :=
  n <<< (unitPlaces + 1)

/-- Whether so many grains round to the magnitude. -/
def readsBack (rank grains : Nat) : Bool :=
  let low := partsOfHalfUnits (units (rank - 1) + units rank)
  let high := partsOfHalfUnits (units rank + units (rank + 1))
  let parts := partsOfGrains grains
  if rank % 2 = 0 then low ≤ parts && parts ≤ high else low < parts && parts < high

/-- The grains in a magnitude, rounded down. -/
def wholeGrains (rank : Nat) : Nat :=
  partsOfHalfUnits (2 * units rank) >>> (unitPlaces + 1)

/-- The decimal of so many digits that reads back as the magnitude, in grains, the nearest if
there are two. -/
def ofDigits? (rank count : Nat) : Option Nat :=
  let whole := wholeGrains rank
  let step := Nat.pow 10 ((Nat.toDigits 10 whole).length - count)
  let below := whole / step * step
  let above := below + step
  match readsBack rank below, readsBack rank above with
  | false, false => none
  | true, false => some below
  | false, true => some above
  | true, true =>
    let middle := 2 * partsOfHalfUnits (2 * units rank)
    some (if middle < partsOfGrains (below + above) then below else above)

/-- The shortest decimal of a magnitude, in grains. -/
def shortest (rank : Nat) : Nat :=
  ((List.range maxDigits).findSome? fun n => ofDigits? rank (n + 1)).getD (wholeGrains rank)

/-! ## Text -/

/-- Grains written as a decimal, without zeros at the end of the fraction. -/
def decimalText (grains : Nat) : String :=
  let one := Nat.pow 10 grainPlaces
  let places := Nat.toDigits 10 (grains % one)
  let places := List.replicate (grainPlaces - places.length) '0' ++ places
  let fraction := (places.reverse.dropWhile (· == '0')).reverse
  toString (grains / one) ++ if fraction.isEmpty then "" else "." ++ String.ofList fraction

/-- The double as it is shown, never with an exponent. -/
def text (x : Double) : String :=
  (if x.negative then "-" else "") ++
    if x.rank = infinity then "inf"
    else if x.rank = 0 then "0"
    else decimalText (shortest x.rank)

end HierarchyAccessors.Double
