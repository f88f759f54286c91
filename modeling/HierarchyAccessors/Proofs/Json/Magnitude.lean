import HierarchyAccessors.Proofs.Json.Integers
import Mathlib.Tactic.Ring

/-!
# The range of numbers

A number is refused when it is infinite as a double. What is looked at is not the number itself:
digits that do not fit into 64 bits are dropped, what is left and the power of ten are rounded to
doubles, and then these are multiplied. The first step makes a number smaller
(`significand_mul_le`), and rounding makes it greater by a factor of `1 + 2⁻⁵³` at most
(`nearestDouble_mul_le`). So every number up to `2¹⁰²⁴ - 2⁹⁷³`, the fourth largest double, is in
range (`fitsDouble_of_atMost`). The largest double is not.
-/

namespace HierarchyAccessors.Json.Numeral

/-- The magnitude of the number, of all its digits, is at most `bound`. -/
def AtMost (bound : Nat) (n : Numeral) : Prop :=
  let power := n.exponent.getD 0 - n.fraction.length
  Nat.ofDigitChars 10 n.fraction n.whole * 10 ^ power.toNat ≤ bound * 10 ^ (-power).toNat

/-! ## Digits that do not fit -/

theorem mul_pow_le_ofDigitChars (ds : List Char) (init : Nat) :
    init * 10 ^ ds.length ≤ Nat.ofDigitChars 10 ds init := by
  rw [Nat.ofDigitChars_eq_ofDigitChars_zero, Nat.mul_comm]
  exact Nat.le_add_right _ _

/-- The significand has the digits that fit; the first that is left over does not. -/
theorem exists_absorb_eq (init : Nat) (ds : List Char) :
    ∃ taken left, ds = taken ++ left ∧
      absorb init ds = (Nat.ofDigitChars 10 taken init, left) ∧
      (taken ≠ [] → Nat.ofDigitChars 10 taken init < UInt64.size) ∧
      ∀ d rest, left = d :: rest →
        UInt64.size ≤ Nat.ofDigitChars 10 [d] (Nat.ofDigitChars 10 taken init) := by
  induction ds generalizing init with
  | nil => exact ⟨[], [], rfl, rfl, nofun, nofun⟩
  | cons d ds ih =>
    by_cases fits : Nat.ofDigitChars 10 [d] init < UInt64.size
    · obtain ⟨taken, left, rfl, eq, small, first⟩ := ih (Nat.ofDigitChars 10 [d] init)
      have step : Nat.ofDigitChars 10 (d :: taken) init =
          Nat.ofDigitChars 10 taken (Nat.ofDigitChars 10 [d] init) := by
        rw [← List.singleton_append, Nat.ofDigitChars_append]
      refine ⟨d :: taken, left, rfl, ?_, fun _ => ?_, ?_⟩
      · rw [absorb, if_pos fits, eq, step]
      · cases taken with
        | nil => exact fits
        | cons => exact step ▸ small nofun
      · rw [step]
        exact first
    · refine ⟨[], d :: ds, rfl, ?_, nofun, ?_⟩
      · rw [absorb, if_neg fits]
        rfl
      · rintro _ _ ⟨⟩
        exact Nat.not_lt.1 fits

/-- A digit before the point that has been dropped makes up for the digits after the point that have
still been taken. -/
theorem dropped_mul_le {upToPoint : Nat} {d : Char} {ds more : List Char}
    (excess : UInt64.size ≤ Nat.ofDigitChars 10 [d] upToPoint)
    (small : more ≠ [] → Nat.ofDigitChars 10 more upToPoint < UInt64.size) (left : List Char) :
    Nat.ofDigitChars 10 more upToPoint * 10 ^ ((d :: ds).length + left.length) ≤
      Nat.ofDigitChars 10 (more ++ left) (Nat.ofDigitChars 10 (d :: ds) upToPoint) := by
  have all := mul_pow_le_ofDigitChars (more ++ left) (Nat.ofDigitChars 10 (d :: ds) upToPoint)
  refine le_trans ?_ all
  by_cases none : more = []
  · subst none
    rw [Nat.ofDigitChars_nil, List.nil_append, pow_add, ← Nat.mul_assoc]
    exact Nat.mul_le_mul_right _ (mul_pow_le_ofDigitChars (d :: ds) upToPoint)
  · have large : UInt64.size * 10 ^ ds.length ≤ Nat.ofDigitChars 10 (d :: ds) upToPoint := by
      refine le_trans (Nat.mul_le_mul_right _ excess) ?_
      rw [← List.singleton_append (l := ds), Nat.ofDigitChars_append]
      exact mul_pow_le_ofDigitChars ds _
    have places : left.length + 1 ≤ (more ++ left).length := by
      have := List.length_pos_iff.2 none
      rw [List.length_append]
      omega
    calc Nat.ofDigitChars 10 more upToPoint * 10 ^ ((d :: ds).length + left.length)
      _ ≤ UInt64.size * 10 ^ ((d :: ds).length + left.length) :=
        Nat.mul_le_mul_right _ (small none).le
      _ = UInt64.size * 10 ^ ds.length * 10 ^ (left.length + 1) := by
        rw [List.length_cons]
        ring
      _ ≤ Nat.ofDigitChars 10 (d :: ds) upToPoint * 10 ^ (more ++ left).length :=
        Nat.mul_le_mul large (Nat.pow_le_pow_right (by decide) places)

/-- What is left of a number when digits are dropped, before the point and after it, is no greater
than the number. -/
theorem significand_mul_le {whole upToPoint significand : Nat} {fraction wholeLeft left : List Char}
    (first : absorb 0 (Nat.toDigits 10 whole) = (upToPoint, wholeLeft))
    (second : absorb upToPoint fraction = (significand, left)) :
    left.length ≤ fraction.length ∧
      significand * 10 ^ (wholeLeft.length + left.length) ≤ Nat.ofDigitChars 10 fraction whole := by
  obtain ⟨taken, _, digits, eq, -, excess⟩ := exists_absorb_eq 0 (Nat.toDigits 10 whole)
  rw [first] at eq
  cases eq
  obtain ⟨more, _, rfl, eq, small, -⟩ := exists_absorb_eq (Nat.ofDigitChars 10 taken 0) fraction
  rw [second] at eq
  cases eq
  have value : Nat.ofDigitChars 10 wholeLeft (Nat.ofDigitChars 10 taken 0) = whole := by
    rw [← Nat.ofDigitChars_append, ← digits, Nat.ofDigitChars_ten_toDigits]
  refine ⟨by simp, ?_⟩
  cases wholeLeft with
  | nil =>
    rw [Nat.ofDigitChars_nil] at value
    rw [value, Nat.ofDigitChars_append, List.length_nil, Nat.zero_add]
    exact mul_pow_le_ofDigitChars left _
  | cons d ds =>
    rw [← value]
    exact dropped_mul_le (excess d ds rfl) small left

/-! ## Rounding -/

/-- Rounding to a multiple of `unit` adds at most half a unit. -/
theorem rounded_le {n unit : Nat} {even : Prop} [Decidable even] :
    2 * (if unit < 2 * (n % unit) ∨ (2 * (n % unit) = unit ∧ even) then (n / unit + 1) * unit
      else n / unit * unit) ≤ 2 * n + unit := by
  have parts := Nat.div_add_mod' n unit
  split_ifs with up
  · rw [Nat.add_mul, Nat.one_mul]
    generalize n / unit * unit = below at parts
    omega
  · generalize n / unit * unit = below at parts
    omega

/-- Rounding to 53 bits makes a number greater by a factor of `1 + 2⁻⁵³` at most. -/
theorem nearestDouble_mul_le (n : Nat) : nearestDouble n * 2 ^ 53 ≤ n * (2 ^ 53 + 1) := by
  have unit_eq : 1 <<< (n.log2 - 52) = 2 ^ (n.log2 - 52) := by rw [Nat.shiftLeft_eq, Nat.one_mul]
  rcases Nat.lt_or_ge n.log2 52 with short | long
  · have exact : nearestDouble n = n := by
      simp [nearestDouble, Nat.sub_eq_zero_of_le short.le, Nat.mod_one]
    rw [exact]
    exact Nat.mul_le_mul_left _ (Nat.le_succ _)
  · have small : 2 ^ (n.log2 - 52) * 2 ^ 52 ≤ n := by
      have nonzero : n ≠ 0 := by
        rintro rfl
        simp at long
      rw [← pow_add, Nat.sub_add_cancel long]
      exact Nat.log2_self_le nonzero
    have rounded : 2 * nearestDouble n ≤ 2 * n + 2 ^ (n.log2 - 52) := by
      simp only [nearestDouble, unit_eq]
      exact rounded_le
    generalize 2 ^ (n.log2 - 52) = unit at small rounded
    calc nearestDouble n * 2 ^ 53
      _ = 2 * nearestDouble n * 2 ^ 52 := by ring
      _ ≤ (2 * n + unit) * 2 ^ 52 := Nat.mul_le_mul_right _ rounded
      _ = n * 2 ^ 53 + unit * 2 ^ 52 := by ring
      _ ≤ n * 2 ^ 53 + n := Nat.add_le_add_left small _
      _ = n * (2 ^ 53 + 1) := (Nat.mul_succ n _).symm

/-! ## Numbers in range -/

/-- The product of two rounded numbers is finite when their product is no greater than the fourth
largest double. -/
theorem nearestDouble_mul_lt {m n : Nat} (h : m * n ≤ 2 ^ 1024 - 2 ^ 973) :
    nearestDouble m * nearestDouble n < 1 <<< 1024 - 1 <<< 970 := by
  refine lt_of_mul_lt_mul_right (a := 2 ^ 53 * 2 ^ 53) ?_ (Nat.zero_le _)
  calc nearestDouble m * nearestDouble n * (2 ^ 53 * 2 ^ 53)
    _ = nearestDouble m * 2 ^ 53 * (nearestDouble n * 2 ^ 53) := by ring
    _ ≤ m * (2 ^ 53 + 1) * (n * (2 ^ 53 + 1)) :=
      Nat.mul_le_mul (nearestDouble_mul_le m) (nearestDouble_mul_le n)
    _ = m * n * ((2 ^ 53 + 1) * (2 ^ 53 + 1)) := by ring
    _ ≤ (2 ^ 1024 - 2 ^ 973) * ((2 ^ 53 + 1) * (2 ^ 53 + 1)) := Nat.mul_le_mul_right _ h
    _ < (1 <<< 1024 - 1 <<< 970) * (2 ^ 53 * 2 ^ 53) := by decide +kernel

/-- Every number up to the fourth largest double is in range. -/
theorem fitsDouble_of_atMost {n : Numeral} (h : n.AtMost (2 ^ 1024 - 2 ^ 973)) :
    n.fitsDouble = true := by
  cases first : absorb 0 (Nat.toDigits 10 n.whole) with
  | mk upToPoint wholeLeft =>
  cases second : absorb upToPoint n.fraction with
  | mk significand left =>
  obtain ⟨shorter, below⟩ := significand_mul_le first second
  simp only [AtMost] at h
  simp only [fitsDouble, first, second, Bool.or_eq_true, Bool.and_eq_true, decide_eq_true_eq,
    beq_iff_eq]
  generalize powers : (n.exponent.getD 0 : Int) + wholeLeft.length -
    ((n.fraction.length - left.length : Nat) : Int) = power
  generalize scale_eq : (n.exponent.getD 0 : Int) - n.fraction.length = scale at h
  refine or_iff_not_imp_left.2 fun large => ?_
  obtain ⟨nonzero, nonneg⟩ := not_or.1 large
  have product : significand * 10 ^ power.toNat ≤ 2 ^ 1024 - 2 ^ 973 := by
    have places : power.toNat + (-scale).toNat =
        wholeLeft.length + left.length + scale.toNat := by omega
    refine Nat.le_of_mul_le_mul_right ?_ (Nat.pow_pos (n := (-scale).toNat) (by decide : 0 < 10))
    calc significand * 10 ^ power.toNat * 10 ^ (-scale).toNat
      _ = significand * 10 ^ (wholeLeft.length + left.length) * 10 ^ scale.toNat := by
        rw [Nat.mul_assoc, ← pow_add, places, pow_add, Nat.mul_assoc]
      _ ≤ Nat.ofDigitChars 10 n.fraction n.whole * 10 ^ scale.toNat :=
        Nat.mul_le_mul_right _ below
      _ ≤ (2 ^ 1024 - 2 ^ 973) * 10 ^ (-scale).toNat := h
  refine ⟨?_, nearestDouble_mul_lt product⟩
  by_contra high
  have exceeds : 309 ≤ power.toNat := by omega
  have unscaled := Nat.le_mul_of_pos_left (10 ^ power.toNat) (Nat.pos_of_ne_zero nonzero)
  have tooLarge := (Nat.pow_le_pow_right (by decide : 0 < 10) exceeds).trans unscaled
  exact absurd (tooLarge.trans product) (by decide +kernel)

theorem atMost_ofInt {n : Int} {bound : Nat} : (ofInt n).AtMost bound ↔ n.natAbs ≤ bound := by
  simp [AtMost, ofInt]

/-- An integer of 64 bits is never too large for a double. -/
theorem fitsDouble_ofInt {n : Int} (h : n.natAbs < UInt64.size) : (ofInt n).fitsDouble = true :=
  fitsDouble_of_atMost (atMost_ofInt.2 (h.le.trans (by decide +kernel)))

/-- The largest finite double. -/
def largestDouble : Nat := 2 ^ 1024 - 2 ^ 971

-- Its first twenty digits are rounded up, and so is the power of ten.
example : (ofInt largestDouble).fitsDouble = false := by decide +kernel

end HierarchyAccessors.Json.Numeral
