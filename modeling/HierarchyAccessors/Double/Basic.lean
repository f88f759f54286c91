/-!
# Doubles

A double has 53 significant bits. Its magnitude is kept as a rank: the number of magnitudes that
lie below it. So magnitudes compare as their ranks do, and the neighbours of a double are those of
its rank. Exact arithmetic is done on natural numbers of a unit, the smallest magnitude above zero
(`units`); a quotient of units is rounded to the nearest rank (`nearestRank`).
-/

namespace HierarchyAccessors

/-- A double that is a number, perhaps an infinite one. -/
structure Double where
  negative : Bool
  /-- How many magnitudes are smaller. -/
  rank : Nat
deriving DecidableEq

namespace Double

/-- The magnitudes from one power of two up to the next. -/
def magnitudesPerBinade : Nat := 1 <<< 52

/-- The rank of infinity. -/
def infinity : Nat := 2047 * magnitudesPerBinade

/-- The units in one are a power of two; this is its exponent. -/
def unitPlaces : Nat := 1074

/-- A finite magnitude in units. -/
def units (rank : Nat) : Nat :=
  let binade := rank / magnitudesPerBinade
  if binade = 0 then rank
  else (magnitudesPerBinade + rank % magnitudesPerBinade) <<< (binade - 1)

/-! ## Rounding -/

/-- The natural number nearest to a quotient, of two the even one. -/
def nearestQuotient (n d : Nat) : Nat :=
  let quotient := n / d
  let twice := 2 * (n % d)
  if d < twice ∨ (twice = d ∧ quotient % 2 = 1) then quotient + 1 else quotient

/-- The rank of the magnitude nearest to `n / d` units. -/
def nearestRank (n d : Nat) : Nat :=
  let binade := (n / d).log2 - 52
  min infinity (binade * magnitudesPerBinade + nearestQuotient n (d <<< binade))

/-- The rank of the magnitude nearest to a significand times a power of ten. -/
def rankOfDecimal (significand : Nat) (power : Int) : Nat :=
  let size := (Nat.toDigits 10 significand).length + power
  if significand = 0 ∨ size < -unitPlaces then 0
  else if unitPlaces < size then infinity
  else if 0 ≤ power then nearestRank ((significand * Nat.pow 10 power.toNat) <<< unitPlaces) 1
  else nearestRank (significand <<< unitPlaces) (Nat.pow 10 (-power).toNat)

/-! ## Order -/

/-- The rank with the sign of the double, so that both zeros have the same. -/
def signedRank (x : Double) : Int :=
  if x.negative then -x.rank else x.rank

/-- Compares values. -/
def compareValues (x y : Double) : Ordering :=
  compare x.signedRank y.signedRank

theorem compareValues_eq_iff (x y : Double) :
    x.compareValues y = .eq ↔ x.rank = y.rank ∧ (x.rank ≠ 0 → x.negative = y.negative) := by
  rw [compareValues, Int.compare_eq_eq]
  cases hx : x.negative <;> cases hy : y.negative <;> grind [signedRank]

end Double

end HierarchyAccessors
