import HierarchyAccessors.Json.Fault

/-!
# Number literals

A number literal is kept as it is written: sign, whole part, digits after the point and power of
ten. It denotes an integer when it has neither a point nor an exponent (`toInt?`), and it is
refused as too large when the nearest double would be infinite (`fitsDouble`).
-/

namespace HierarchyAccessors.Json

/-- A number literal. No digits after the point means that there is no point. -/
structure Numeral where
  negative : Bool
  whole : Nat
  fraction : List Char
  exponent : Option Int
deriving DecidableEq

namespace Numeral

/-! ## Integers -/

/-- The literal of an integer. -/
def ofInt (n : Int) : Numeral :=
  ⟨n < 0, n.natAbs, [], none⟩

/-- The integer that the literal denotes. A minus sign before zero makes it a number that is not
an integer. -/
def toInt? (n : Numeral) : Option Int :=
  match n with
  | ⟨negative, whole, [], none⟩ =>
    if negative then if whole = 0 then none else some (-whole) else some whole
  | _ => none

theorem toInt?_ofInt (n : Int) : (ofInt n).toInt? = some n := by
  simp only [ofInt, toInt?, decide_eq_true_eq]
  split
  · split <;> grind
  · grind

/-! ## Magnitude -/

/-- The significand is the digits from the left on for as long as it fits into 64 bits; also
the digits that are left over. -/
def absorb (significand : Nat) : List Char → Nat × List Char
  | [] => (significand, [])
  | d :: ds =>
    let next := Nat.ofDigitChars 10 [d] significand
    if next < UInt64.size then absorb next ds else (significand, d :: ds)

/-- The nearest number with 53 significant bits, of two the one with an even last bit. -/
def nearestDouble (n : Nat) : Nat :=
  let unit := 1 <<< (n.log2 - 52)
  let quotient := n / unit
  let twice := 2 * (n % unit)
  if unit < twice ∨ (twice = unit ∧ quotient % 2 = 1) then (quotient + 1) * unit
  else quotient * unit

/-- Whether the value is finite as a double. The significand and the power of ten are rounded
before they are multiplied. -/
def fitsDouble (n : Numeral) : Bool :=
  let (upToPoint, wholeLeft) := absorb 0 (Nat.toDigits 10 n.whole)
  let (significand, fractionLeft) := absorb upToPoint n.fraction
  let places := n.fraction.length - fractionLeft.length
  let power := n.exponent.getD 0 + wholeLeft.length - places
  significand == 0 || power < 0 ||
    (power ≤ 308 &&
      nearestDouble significand * nearestDouble (Nat.pow 10 power.toNat) < 1 <<< 1024 - 1 <<< 970)

/-! ## Reading a literal -/

/-- A text that begins as a number and is none: the fault when the number is wanted, and the fault
when it is only passed over. -/
structure Broken where
  read : Fault
  skipped : Fault
deriving DecidableEq

/-- The text stops where a digit must follow. -/
def Broken.cut : Broken := ⟨.ended, .malformed⟩

/-- Something else stands where a digit must follow. -/
def Broken.bad : Broken := ⟨.malformed, .malformed⟩

/-- At least one digit, and the text after the digits. -/
def digits : List Char → Except Broken (List Char × List Char)
  | [] => .error .cut
  | c :: cs =>
    if c.isDigit then .ok (c :: cs.takeWhile Char.isDigit, cs.dropWhile Char.isDigit)
    else .error .bad

/-- The whole part: a zero alone, or digits that begin with another digit. -/
def wholePart (cs : List Char) : Except Broken (Nat × List Char) := do
  let (ds, rest) ← digits cs
  if ds.head? = some '0' ∧ ds.length ≠ 1 then throw .bad
  return (Nat.ofDigitChars 10 ds 0, rest)

/-- The digits after a point, if there is one. -/
def fractionPart : List Char → Except Broken (List Char × List Char)
  | '.' :: cs => digits cs
  | cs => .ok ([], cs)

/-- Whether a minus sign stands first, and the text after a sign. -/
def sign : List Char → Bool × List Char
  | '-' :: cs => (true, cs)
  | '+' :: cs => (false, cs)
  | cs => (false, cs)

/-- A power of ten after its letter. -/
def power (cs : List Char) : Except Broken (Int × List Char) := do
  let (negative, cs) := sign cs
  let (ds, rest) ← digits cs
  let size : Int := Nat.ofDigitChars 10 ds 0
  return (if negative then -size else size, rest)

/-- The power of ten after an `e`, if there is one. -/
def exponentPart : List Char → Except Broken (Option Int × List Char)
  | [] => .ok (none, [])
  | c :: cs =>
    if c = 'e' ∨ c = 'E' then do
      let (n, rest) ← power cs
      return (some n, rest)
    else .ok (none, c :: cs)

/-- The literal at the start of a text, and the text after it. -/
def scan (cs : List Char) : Except Broken (Numeral × List Char) := do
  let (negative, cs) := if cs.head? = some '-' then (true, cs.tail) else (false, cs)
  let (whole, cs) ← wholePart cs
  let (fraction, cs) ← fractionPart cs
  let (exponent, cs) ← exponentPart cs
  return (⟨negative, whole, fraction, exponent⟩, cs)

/-! ## What is left is shorter -/

theorem length_of_digits {cs ds rest : List Char} (h : digits cs = .ok (ds, rest)) :
    rest.length < cs.length := by
  cases cs with
  | nil => simp [digits] at h
  | cons c cs =>
    simp only [digits] at h
    split at h
    · simp only [Except.ok.injEq, Prod.mk.injEq] at h
      rw [← h.2]
      exact Nat.lt_succ_of_le (List.dropWhile_sublist _).length_le
    · simp at h

theorem length_of_wholePart {cs rest : List Char} {n : Nat} (h : wholePart cs = .ok (n, rest)) :
    rest.length < cs.length := by
  obtain ⟨⟨ds, rest'⟩, hd, h⟩ := bind_eq_ok_iff.1 h
  simp only at h
  split at h
  · cases h
  · cases h
    exact length_of_digits hd

theorem length_of_fractionPart {cs ds rest : List Char} (h : fractionPart cs = .ok (ds, rest)) :
    rest.length ≤ cs.length := by
  unfold fractionPart at h
  split at h
  · have := length_of_digits h
    simp; omega
  · simp only [Except.ok.injEq, Prod.mk.injEq] at h
    simp [← h.2]

theorem length_sign (cs : List Char) : (sign cs).2.length ≤ cs.length := by
  unfold sign
  split <;> simp

theorem length_of_power {cs rest : List Char} {n : Int} (h : power cs = .ok (n, rest)) :
    rest.length < cs.length := by
  obtain ⟨⟨ds, rest'⟩, hd, h⟩ := bind_eq_ok_iff.1 h
  cases h
  exact Nat.lt_of_lt_of_le (length_of_digits hd) (length_sign cs)

theorem length_of_exponentPart {cs rest : List Char} {n : Option Int}
    (h : exponentPart cs = .ok (n, rest)) : rest.length ≤ cs.length := by
  unfold exponentPart at h
  split at h
  · simp_all
  · split at h
    · obtain ⟨⟨n, rest'⟩, hp, h⟩ := bind_eq_ok_iff.1 h
      cases h
      exact Nat.le_succ_of_le (Nat.le_of_lt (length_of_power hp))
    · cases h
      exact Nat.le_refl _

theorem length_of_scan {cs rest : List Char} {n : Numeral} (h : scan cs = .ok (n, rest)) :
    rest.length < cs.length := by
  have start : (if cs.head? = some '-' then (true, cs.tail) else (false, cs)).2.length ≤
      cs.length := by split <;> simp
  obtain ⟨⟨whole, cs₁⟩, hw, h⟩ := bind_eq_ok_iff.1 h
  obtain ⟨⟨fraction, cs₂⟩, hf, h⟩ := bind_eq_ok_iff.1 h
  obtain ⟨⟨exponent, cs₃⟩, he, h⟩ := bind_eq_ok_iff.1 h
  cases h
  exact Nat.lt_of_le_of_lt (length_of_exponentPart he) (Nat.lt_of_le_of_lt
    (length_of_fractionPart hf) (Nat.lt_of_lt_of_le (length_of_wholePart hw) start))

end Numeral

end HierarchyAccessors.Json
