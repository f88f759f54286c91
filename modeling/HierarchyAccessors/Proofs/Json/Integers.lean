import HierarchyAccessors.Json.Value
import HierarchyAccessors.Proofs.Json.Literals
import Mathlib.Algebra.Order.Ring.Int
import Mathlib.Data.List.Induction

/-!
# Written integers

The literal of an integer is a spelling of it (`Numeral.spelled_integerText`), so it is cut out of
a text at its own end. A natural number has no other spelling than its decimal digits
(`Numeral.Spelled.eq_toDigits`).
-/

namespace HierarchyAccessors.Json

namespace Numeral

/-! ## Decimal digits -/

theorem isDigit_of_mem_toDigits {n : Nat} {c : Char} (h : c ∈ Nat.toDigits 10 n) :
    c.isDigit = true :=
  Nat.isDigit_of_mem_toDigits (by decide) (by decide) h

/-- Only zero begins with a zero. -/
theorem head?_toDigits_ne_zero {n : Nat} (h : 0 < n) : (Nat.toDigits 10 n).head? ≠ some '0' := by
  induction n using Nat.strong_induction_on with
  | _ n ih =>
    rcases Nat.lt_or_ge n 10 with lt | ge
    · have digit : ∀ i < 10, 0 < i → [i.digitChar].head? ≠ some '0' := by decide
      rw [Nat.toDigits_of_lt_base lt]
      exact digit n lt h
    · rw [Nat.toDigits_of_base_le (by decide) ge, List.head?_append]
      have rest := ih (n / 10) (by omega) (by omega)
      cases hd : (Nat.toDigits 10 (n / 10)).head? with
      | none => exact absurd (List.head?_eq_none_iff.1 hd) Nat.toDigits_ne_nil
      | some c => simpa [hd] using rest

theorem wholeDigits_toDigits (n : Nat) : WholeDigits (Nat.toDigits 10 n) := by
  refine ⟨⟨Nat.toDigits_ne_nil, fun _ => isDigit_of_mem_toDigits⟩, fun zero => ?_⟩
  rcases Nat.eq_zero_or_pos n with rfl | pos
  · rfl
  · exact absurd zero (head?_toDigits_ne_zero pos)

theorem spelled_integerText (n : Int) : (ofInt n).Spelled (Value.integerText n) := by
  have spelled := Spelled.mk (n < 0) (wholeDigits_toDigits n.natAbs) .whole .missing
  rw [Nat.ofDigitChars_ten_toDigits, List.append_nil, List.append_nil] at spelled
  have text : Value.integerText n = signText (n < 0) ++ Nat.toDigits 10 n.natAbs := by
    unfold Value.integerText signText
    by_cases h : n < 0 <;> simp [h]
  rw [text]
  exact spelled

/-- A written integer is read as itself, and the text after it is left over. -/
theorem scan_integerText (n : Int) {rest : List Char} (h : EndsNumber rest) :
    scan (Value.integerText n ++ rest) = .ok (ofInt n, rest) :=
  (spelled_integerText n).scan h

/-! ## Decimal digits of a value -/

theorem digitChar_sub {d : Char} (h : d.isDigit = true) :
    d.toNat - '0'.toNat < 10 ∧ (d.toNat - '0'.toNat).digitChar = d := by
  have range : 48 ≤ d.toNat ∧ d.toNat ≤ 57 := by
    simpa [Char.isDigit, UInt32.le_iff_toNat_le] using h
  have all : ∀ n, 48 ≤ n → n ≤ 57 →
      n - '0'.toNat < 10 ∧ (n - '0'.toNat).digitChar = Char.ofNat n := by decide
  have := all d.toNat range.1 range.2
  rwa [Char.ofNat_toNat] at this

/-- Digits without a leading zero are the digits of their value. -/
theorem toDigits_ofDigitChars {ds : List Char} (h : WholeDigits ds) :
    Nat.toDigits 10 (Nat.ofDigitChars 10 ds 0) = ds := by
  induction ds using List.reverseRecOn with
  | nil => exact absurd rfl h.1.1
  | append_singleton init d ih =>
    obtain ⟨⟨-, digits⟩, zero⟩ := h
    obtain ⟨small, char⟩ := digitChar_sub (digits d (by simp))
    have value : Nat.ofDigitChars 10 (init ++ [d]) 0 =
        10 * Nat.ofDigitChars 10 init 0 + (d.toNat - '0'.toNat) := by
      rw [Nat.ofDigitChars_append, Nat.ofDigitChars_cons, Nat.ofDigitChars_nil]
    cases init with
    | nil =>
      rw [value, Nat.ofDigitChars_nil, Nat.mul_zero, Nat.zero_add, Nat.toDigits_of_lt_base small,
        char]
      rfl
    | cons c cs =>
      have leading : c ≠ '0' := by
        rintro rfl
        have := zero rfl
        simp at this
      have init_eq := ih ⟨⟨nofun, fun d hd => digits d (List.mem_append_left _ hd)⟩,
        fun h => absurd (Option.some.inj h) leading⟩
      have pos : Nat.ofDigitChars 10 (c :: cs) 0 ≠ 0 := by
        intro nothing
        rw [nothing] at init_eq
        exact leading (List.cons.inj init_eq).1.symm
      rw [value, Nat.toDigits_of_base_le (by decide) (by omega)]
      have div : (10 * Nat.ofDigitChars 10 (c :: cs) 0 + (d.toNat - '0'.toNat)) / 10 =
          Nat.ofDigitChars 10 (c :: cs) 0 := by omega
      have mod : (10 * Nat.ofDigitChars 10 (c :: cs) 0 + (d.toNat - '0'.toNat)) % 10 =
          d.toNat - '0'.toNat := by omega
      rw [div, mod, init_eq, char]

/-- A spelling of a number that denotes a natural number is its decimal digits. -/
theorem Spelled.eq_toDigits {n : Numeral} {text : List Char} (h : n.Spelled text) {i : Int}
    (value : n.toInt? = some i) (nonneg : 0 ≤ i) : text = Nat.toDigits 10 i.toNat := by
  obtain ⟨negative, wholeDigits, fraction, exponent⟩ := h
  cases fraction with
  | point digits =>
    obtain ⟨d, ds, rfl⟩ := List.exists_cons_of_ne_nil digits.1
    cases value
  | whole =>
    cases exponent with
    | missing =>
      cases negative with
      | true =>
        simp only [toInt?, if_true] at value
        split at value
        · cases value
        · cases value
          omega
      | false =>
        simp only [toInt?, Bool.false_eq_true, if_false, Option.some.injEq] at value
        subst value
        rw [Int.toNat_natCast, toDigits_ofDigitChars wholeDigits]
        simp [signText]
    | unsigned | positive | negative => cases value

end Numeral

end HierarchyAccessors.Json
