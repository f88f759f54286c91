import HierarchyAccessors.Json.Numeral
import HierarchyAccessors.Json.Quoted
import Mathlib.Data.List.TakeWhile

/-!
# The grammar of literals

What a number or a string may look like in a text, said without reference to how it is read:
`Numeral.Spelled` and `Quoted.Spelled` relate a literal to its spellings. The functions that cut
literals out of a text find a spelling wherever one stands (`Numeral.Spelled.scan`,
`Quoted.Spelled.splitAtQuote`) and accept nothing else (`Numeral.spelled_of_scan`,
`Quoted.spelled_of_splitAtQuote`).
-/

namespace HierarchyAccessors.Json

/-! ## Numbers -/

/-- A text that does not go on with a digit. -/
def EndsDigits (cs : List Char) : Prop :=
  ∀ c ∈ cs.head?, c.isDigit = false

/-- A text that does not go on with a number. -/
def EndsNumber (cs : List Char) : Prop :=
  ∀ c ∈ cs.head?, c.isDigit = false ∧ c ≠ '.' ∧ c ≠ 'e' ∧ c ≠ 'E'

theorem endsNumber_nil : EndsNumber [] := by
  intro c h
  cases h

theorem endsNumber_cons {c : Char} {cs : List Char}
    (h : c.isDigit = false ∧ c ≠ '.' ∧ c ≠ 'e' ∧ c ≠ 'E') : EndsNumber (c :: cs) := by
  intro d hd
  cases hd
  exact h

theorem EndsNumber.endsDigits {cs : List Char} (h : EndsNumber cs) : EndsDigits cs :=
  fun c hc => (h c hc).1

theorem endsDigits_cons {c : Char} {cs : List Char} (h : c.isDigit = false) :
    EndsDigits (c :: cs) := by
  intro d hd
  cases hd
  exact h

namespace Numeral

/-- Decimal digits, at least one. -/
def Digits (ds : List Char) : Prop :=
  ds ≠ [] ∧ ∀ c ∈ ds, c.isDigit = true

/-- The spellings of a whole part: no zero stands before another digit. -/
def WholeDigits (ds : List Char) : Prop :=
  Digits ds ∧ (ds.head? = some '0' → ds.length = 1)

/-- The spelling of a fraction, given by its digits. -/
inductive FractionSpelled : List Char → List Char → Prop
  | whole : FractionSpelled [] []
  | point {ds : List Char} (digits : Digits ds) : FractionSpelled ds ('.' :: ds)

/-- The spellings of a power of ten. -/
inductive ExponentSpelled : Option Int → List Char → Prop
  | missing : ExponentSpelled none []
  | unsigned {letter : Char} {ds : List Char} (e : letter = 'e' ∨ letter = 'E')
      (digits : Digits ds) : ExponentSpelled (some (Nat.ofDigitChars 10 ds 0)) (letter :: ds)
  | positive {letter : Char} {ds : List Char} (e : letter = 'e' ∨ letter = 'E')
      (digits : Digits ds) :
      ExponentSpelled (some (Nat.ofDigitChars 10 ds 0)) (letter :: '+' :: ds)
  | negative {letter : Char} {ds : List Char} (e : letter = 'e' ∨ letter = 'E')
      (digits : Digits ds) :
      ExponentSpelled (some (-(Nat.ofDigitChars 10 ds 0 : Int))) (letter :: '-' :: ds)

/-- The sign of a number. -/
def signText (negative : Bool) : List Char :=
  if negative then ['-'] else []

/-- The spellings of a number. -/
inductive Spelled : Numeral → List Char → Prop
  | mk (negative : Bool) {whole fraction fractionText exponentText : List Char}
      {exponent : Option Int} (wholeDigits : WholeDigits whole)
      (fractionSpelled : FractionSpelled fraction fractionText)
      (exponentSpelled : ExponentSpelled exponent exponentText) :
      Spelled ⟨negative, Nat.ofDigitChars 10 whole 0, fraction, exponent⟩
        (signText negative ++ (whole ++ (fractionText ++ exponentText)))

theorem digits_append {ds rest : List Char} (h : Digits ds) (stop : EndsDigits rest) :
    digits (ds ++ rest) = .ok (ds, rest) := by
  have rest_eq : rest.takeWhile Char.isDigit = [] ∧ rest.dropWhile Char.isDigit = rest := by
    cases rest with
    | nil => exact ⟨rfl, rfl⟩
    | cons c cs => simp [stop c rfl]
  obtain ⟨ne, all⟩ := h
  cases ds with
  | nil => exact absurd rfl ne
  | cons d ds =>
    obtain ⟨first, more⟩ := List.forall_mem_cons.1 all
    rw [List.cons_append, digits, if_pos first, List.takeWhile_append_of_pos more,
      List.dropWhile_append_of_pos more, rest_eq.1, rest_eq.2, List.append_nil]

theorem digits_of_digits {cs ds rest : List Char} (h : digits cs = .ok (ds, rest)) :
    cs = ds ++ rest ∧ Digits ds ∧ EndsDigits rest := by
  cases cs with
  | nil => cases h
  | cons c cs =>
    rw [digits] at h
    split at h
    · next first =>
      cases h
      refine ⟨by rw [List.cons_append, List.takeWhile_append_dropWhile],
        ⟨List.cons_ne_nil _ _, ?_⟩, ?_⟩
      · exact List.forall_mem_cons.2 ⟨first, fun d hd => List.mem_takeWhile_imp hd⟩
      · intro d hd
        have := List.head?_dropWhile_not Char.isDigit cs
        rw [Option.mem_def.1 hd] at this
        simpa using this
    · cases h

theorem wholePart_append {ds rest : List Char} (h : WholeDigits ds) (stop : EndsDigits rest) :
    wholePart (ds ++ rest) = .ok (Nat.ofDigitChars 10 ds 0, rest) := by
  have single : ¬(ds.head? = some '0' ∧ ds.length ≠ 1) := fun ⟨zero, long⟩ => long (h.2 zero)
  simp only [wholePart, digits_append h.1 stop, bind, Except.bind]
  rw [if_neg single]
  rfl

theorem spelled_of_wholePart {cs rest : List Char} {n : Nat} (h : wholePart cs = .ok (n, rest)) :
    ∃ ds, cs = ds ++ rest ∧ WholeDigits ds ∧ n = Nat.ofDigitChars 10 ds 0 ∧ EndsDigits rest := by
  obtain ⟨⟨ds, rest'⟩, cut, h⟩ := bind_eq_ok_iff.1 h
  obtain ⟨text, all, stop⟩ := digits_of_digits cut
  simp only at h
  split at h
  · cases h
  · next single =>
    cases h
    refine ⟨ds, text, ⟨all, fun zero => ?_⟩, rfl, stop⟩
    exact Decidable.byContradiction fun long => single ⟨zero, long⟩

theorem fractionPart_append {fraction text rest : List Char} (h : FractionSpelled fraction text)
    (stop : EndsDigits rest) (point : rest.head? ≠ some '.') :
    fractionPart (text ++ rest) = .ok (fraction, rest) := by
  cases h with
  | whole =>
    cases rest with
    | nil => rfl
    | cons c cs =>
      rw [List.nil_append, fractionPart.eq_2]
      rintro _ heq
      exact point (congrArg List.head? heq)
  | point all => exact digits_append all stop

theorem spelled_of_fractionPart {cs fraction rest : List Char}
    (h : fractionPart cs = .ok (fraction, rest)) (stop : EndsDigits cs) :
    ∃ text, cs = text ++ rest ∧ FractionSpelled fraction text ∧ EndsDigits rest := by
  unfold fractionPart at h
  split at h
  · obtain ⟨rfl, all, ends⟩ := digits_of_digits h
    exact ⟨'.' :: fraction, rfl, .point all, ends⟩
  · cases h
    exact ⟨[], rfl, .whole, stop⟩

theorem isDigit_ne {c d : Char} (h : c.isDigit = true) (other : d.isDigit = false) : c ≠ d := by
  rintro rfl
  rw [h] at other
  cases other

theorem sign_digits {ds rest : List Char} (h : Digits ds) :
    sign (ds ++ rest) = (false, ds ++ rest) := by
  obtain ⟨ne, all⟩ := h
  cases ds with
  | nil => exact absurd rfl ne
  | cons d ds =>
    have digit := all d List.mem_cons_self
    rw [List.cons_append, sign.eq_3]
    · rintro _ heq
      exact isDigit_ne digit rfl (List.cons.inj heq).1
    · rintro _ heq
      exact isDigit_ne digit rfl (List.cons.inj heq).1

theorem exponentPart_append {exponent : Option Int} {text rest : List Char}
    (h : ExponentSpelled exponent text) (stop : EndsDigits rest)
    (letter : ∀ c ∈ rest.head?, c ≠ 'e' ∧ c ≠ 'E') :
    exponentPart (text ++ rest) = .ok (exponent, rest) := by
  cases h with
  | missing =>
    cases rest with
    | nil => rfl
    | cons c cs =>
      obtain ⟨lower, upper⟩ := letter c rfl
      rw [List.nil_append, exponentPart, if_neg (by simp [lower, upper])]
  | unsigned e all =>
    rw [List.cons_append, exponentPart, if_pos e]
    simp only [power, sign_digits all, digits_append all stop, bind, Except.bind]
    rfl
  | positive e all =>
    rw [List.cons_append, exponentPart, if_pos e]
    simp only [power, List.cons_append, sign, digits_append all stop, bind, Except.bind]
    rfl
  | negative e all =>
    rw [List.cons_append, exponentPart, if_pos e]
    simp only [power, List.cons_append, sign, digits_append all stop, bind, Except.bind]
    rfl

theorem sign_cases (cs : List Char) :
    (∃ cs', cs = '-' :: cs' ∧ sign cs = (true, cs')) ∨
      (∃ cs', cs = '+' :: cs' ∧ sign cs = (false, cs')) ∨ sign cs = (false, cs) := by
  rw [sign.eq_def]
  split
  · exact .inl ⟨_, rfl, rfl⟩
  · exact .inr (.inl ⟨_, rfl, rfl⟩)
  · exact .inr (.inr rfl)

theorem spelled_of_power {letter : Char} {cs rest : List Char} {n : Int}
    (e : letter = 'e' ∨ letter = 'E') (h : power cs = .ok (n, rest)) :
    ∃ text, letter :: cs = text ++ rest ∧ ExponentSpelled (some n) text ∧ EndsDigits rest := by
  rcases sign_cases cs with ⟨cs', rfl, signed⟩ | ⟨cs', rfl, signed⟩ | signed <;>
    rw [power, signed] at h <;>
    obtain ⟨⟨ds, rest'⟩, cut, h⟩ := bind_eq_ok_iff.1 h <;>
    obtain ⟨text, all, stop⟩ := digits_of_digits cut <;>
    cases h <;> cases text
  · exact ⟨letter :: '-' :: ds, rfl, .negative e all, stop⟩
  · exact ⟨letter :: '+' :: ds, rfl, .positive e all, stop⟩
  · exact ⟨letter :: ds, rfl, .unsigned e all, stop⟩

theorem spelled_of_exponentPart {cs rest : List Char} {exponent : Option Int}
    (h : exponentPart cs = .ok (exponent, rest)) (stop : EndsDigits cs) :
    ∃ text, cs = text ++ rest ∧ ExponentSpelled exponent text ∧ EndsDigits rest := by
  cases cs with
  | nil =>
    cases h
    exact ⟨[], rfl, .missing, stop⟩
  | cons c cs =>
    rw [exponentPart] at h
    split at h
    · next e =>
      obtain ⟨⟨n, rest'⟩, read, h⟩ := bind_eq_ok_iff.1 h
      cases h
      exact spelled_of_power e read
    · cases h
      exact ⟨[], rfl, .missing, stop⟩

theorem ExponentSpelled.head? {exponent : Option Int} {text rest : List Char}
    (h : ExponentSpelled exponent text) (stop : EndsNumber rest) :
    ∀ c ∈ (text ++ rest).head?, c.isDigit = false ∧ c ≠ '.' := by
  have letters {c d : Char} (e : c = 'e' ∨ c = 'E') (same : d ∈ some c) :
      d.isDigit = false ∧ d ≠ '.' := by
    cases same
    rcases e with rfl | rfl <;> exact ⟨rfl, by decide⟩
  cases h with
  | missing => exact fun c hc => ⟨(stop c hc).1, (stop c hc).2.1⟩
  | unsigned e => exact fun c hc => letters e hc
  | positive e => exact fun c hc => letters e hc
  | negative e => exact fun c hc => letters e hc

theorem FractionSpelled.endsDigits {fraction text rest : List Char}
    (h : FractionSpelled fraction text) (stop : EndsDigits rest) : EndsDigits (text ++ rest) := by
  cases h with
  | whole => exact stop
  | point => exact endsDigits_cons rfl

/-- A spelling of a number is cut out where it stands, if the text does not go on with the
number. -/
theorem Spelled.scan {n : Numeral} {text rest : List Char} (h : n.Spelled text)
    (stop : EndsNumber rest) : Numeral.scan (text ++ rest) = .ok (n, rest) := by
  obtain ⟨negative, whole, fraction, exponent⟩ := h
  next ds fs fractionText exponentText exp =>
  have afterFraction := exponent.head? stop
  have ends : EndsDigits (exponentText ++ rest) := fun c hc => (afterFraction c hc).1
  have cutWhole := wholePart_append whole (fraction.endsDigits ends)
  have cutFraction := fractionPart_append fraction ends fun point =>
    (afterFraction '.' point).2 rfl
  have cutExponent := exponentPart_append exponent stop.endsDigits fun c hc => (stop c hc).2.2
  have unsigned : (ds ++ (fractionText ++ (exponentText ++ rest))).head? ≠ some '-' := by
    cases hd : ds with
    | nil => exact absurd hd whole.1.1
    | cons d ds' =>
      rw [hd] at whole
      intro minus
      exact isDigit_ne (whole.1.2 d List.mem_cons_self) (by decide) (Option.some.inj minus)
  simp only [List.append_assoc, Numeral.scan, signText]
  cases negative <;>
    simp only [Bool.false_eq_true, if_false, if_true, List.nil_append, List.cons_append,
      if_neg unsigned, List.head?_cons, List.tail_cons, cutWhole, cutFraction, cutExponent, bind,
      Except.bind] <;>
    rfl

/-- What follows the sign. -/
theorem spelled_of_parts {negative : Bool} {n : Numeral} {cs rest : List Char}
    (h : (do
      let (whole, cs) ← wholePart cs
      let (fraction, cs) ← fractionPart cs
      let (exponent, cs) ← exponentPart cs
      return ((⟨negative, whole, fraction, exponent⟩, cs) : Numeral × List Char)) =
        Except.ok (n, rest)) :
    ∃ text, signText negative ++ cs = text ++ rest ∧ n.Spelled text ∧ EndsDigits rest := by
  obtain ⟨⟨whole, cs₁⟩, cutWhole, h⟩ := bind_eq_ok_iff.1 h
  obtain ⟨⟨fraction, cs₂⟩, cutFraction, h⟩ := bind_eq_ok_iff.1 h
  obtain ⟨⟨exponent, cs₃⟩, cutExponent, h⟩ := bind_eq_ok_iff.1 h
  cases h
  obtain ⟨ds, rfl, wholeDigits, rfl, ends₁⟩ := spelled_of_wholePart cutWhole
  obtain ⟨fractionText, rfl, fractionSpelled, ends₂⟩ := spelled_of_fractionPart cutFraction ends₁
  obtain ⟨exponentText, rfl, exponentSpelled, ends₃⟩ := spelled_of_exponentPart cutExponent ends₂
  refine ⟨_, ?_, .mk negative wholeDigits fractionSpelled exponentSpelled, ends₃⟩
  simp only [List.append_assoc]

/-- What is cut out as a number is a spelling of it, and no digit follows. -/
theorem spelled_of_scan {n : Numeral} {cs rest : List Char} (h : scan cs = .ok (n, rest)) :
    ∃ text, cs = text ++ rest ∧ n.Spelled text ∧ EndsDigits rest := by
  rw [Numeral.scan] at h
  by_cases minus : cs.head? = some '-'
  · obtain ⟨cs', rfl⟩ : ∃ cs', cs = '-' :: cs' := by
      cases cs with
      | nil => cases minus
      | cons c cs => exact ⟨cs, by rw [Option.some.inj minus]⟩
    rw [if_pos minus] at h
    exact spelled_of_parts h
  · rw [if_neg minus] at h
    exact spelled_of_parts h

end Numeral

/-! ## Strings -/

namespace Quoted

/-- The spellings of the inside of a string literal, given by its pieces: a character stands for
itself, for a character after a backslash, or for one of the digits of a code unit. -/
inductive Spelled : List Piece → List Char → Prop
  | nil : Spelled [] []
  | plain {c : Char} {ps : List Piece} {cs : List Char} (printable : 0x20 ≤ c.toNat)
      (quote : c ≠ '"') (backslash : c ≠ '\\') (more : Spelled ps cs) :
      Spelled (.char c :: ps) (c :: cs)
  | escape {e c : Char} {ps : List Piece} {cs : List Char} (escaped : escaped? e = some c)
      (more : Spelled ps cs) : Spelled (.char c :: ps) ('\\' :: e :: cs)
  | unit {a b c d : Char} {n : Nat} {ps : List Piece} {cs : List Char}
      (digits : hexUnit? a b c d = some n) (more : Spelled ps cs) :
      Spelled (.unit n :: ps) ('\\' :: 'u' :: a :: b :: c :: d :: cs)

theorem ne_u_of_escaped {e c : Char} (escaped : escaped? e = some c) : e ≠ 'u' := by
  rintro rfl
  cases escaped

theorem piecesOf_plain (stop short : Option Fault) {c : Char} (cs : List Char)
    (printable : 0x20 ≤ c.toNat) (backslash : c ≠ '\\') :
    piecesOf stop short (c :: cs) =
      (.char c :: (piecesOf stop short cs).1, (piecesOf stop short cs).2) := by
  rw [piecesOf.eq_def]
  split <;> simp_all

theorem piecesOf_escape (stop short : Option Fault) {e c : Char} (cs : List Char)
    (escaped : escaped? e = some c) :
    piecesOf stop short ('\\' :: e :: cs) =
      (.char c :: (piecesOf stop short cs).1, (piecesOf stop short cs).2) := by
  have ne := ne_u_of_escaped escaped
  rw [piecesOf.eq_def]
  split <;> grind

theorem Spelled.piecesOf {ps : List Piece} {raw : List Char} (h : Spelled ps raw)
    (stop short : Option Fault) : Quoted.piecesOf stop short raw = (ps, stop) := by
  induction h with
  | nil => rfl
  | plain printable _ backslash _ ih => rw [piecesOf_plain stop short _ printable backslash, ih]
  | escape escaped _ ih => rw [piecesOf_escape stop short _ escaped, ih]
  | unit digits _ ih =>
    rw [Quoted.piecesOf, digits]
    simp only [ih]

theorem Spelled.pieces {ps : List Piece} {raw : List Char} (h : Spelled ps raw) :
    (closed raw).pieces = (ps, none) :=
  h.piecesOf none (some .malformed)

theorem hexDigit?_ne {c : Char} {n : Nat} (h : Text.hexDigit? c = some n) : c ≠ '"' ∧ c ≠ '\\' := by
  constructor
  · rintro rfl
    revert h
    decide +revert
  · rintro rfl
    revert h
    decide +revert

theorem splitAtQuote_plain {c : Char} (cs : List Char) (quote : c ≠ '"') (backslash : c ≠ '\\') :
    splitAtQuote (c :: cs) =
      (splitAtQuote cs).map fun (raw, rest) => (c :: raw, rest) := by
  rw [splitAtQuote.eq_def]
  split <;> simp_all

theorem splitAtQuote_escape {e : Char} (cs : List Char) (unit : e ≠ 'u') :
    splitAtQuote ('\\' :: e :: cs) =
      (splitAtQuote cs).map fun (raw, rest) => ('\\' :: e :: raw, rest) := by
  rw [splitAtQuote.eq_def]
  split <;> grind

theorem hexUnit?_eq_some {a b c d : Char} {n : Nat} (h : hexUnit? a b c d = some n) :
    ∀ x ∈ [a, b, c, d], x ≠ '"' ∧ x ≠ '\\' := by
  simp only [hexUnit?, Option.bind_eq_bind, Option.bind_eq_some_iff] at h
  obtain ⟨_, ha, _, hb, _, hc, _, hd, -⟩ := h
  simp only [List.forall_mem_cons]
  exact ⟨hexDigit?_ne ha, hexDigit?_ne hb, hexDigit?_ne hc, hexDigit?_ne hd, by simp⟩

theorem tooShort_four (a b c d : Char) (cs : List Char) :
    tooShort (a :: b :: c :: d :: cs) = false := by
  have := a.utf8Size_pos
  have := b.utf8Size_pos
  have := c.utf8Size_pos
  have := d.utf8Size_pos
  exact decide_eq_false (by simp; omega)

theorem splitAtQuote_unit {a b c d : Char} {n : Nat} (cs : List Char)
    (digits : hexUnit? a b c d = some n) :
    splitAtQuote ('\\' :: 'u' :: a :: b :: c :: d :: cs) =
      (splitAtQuote cs).map fun (raw, rest) =>
        ('\\' :: 'u' :: a :: b :: c :: d :: raw, rest) := by
  have plain := hexUnit?_eq_some digits
  simp only [List.forall_mem_cons] at plain
  obtain ⟨ha, hb, hc, hd, -⟩ := plain
  rw [splitAtQuote, if_neg (by simp [tooShort_four]), splitAtQuote_plain _ ha.1 ha.2,
    splitAtQuote_plain _ hb.1 hb.2, splitAtQuote_plain _ hc.1 hc.2, splitAtQuote_plain _ hd.1 hd.2]
  simp only [Option.map_map, Function.comp_def]

/-- A spelling is cut out of a text at its own quote. -/
theorem Spelled.splitAtQuote {ps : List Piece} {raw : List Char} (h : Spelled ps raw)
    (rest : List Char) : Json.splitAtQuote (raw ++ '"' :: rest) = some (raw, rest) := by
  induction h with
  | nil => rfl
  | plain _ quote backslash _ ih =>
    rw [List.cons_append, splitAtQuote_plain _ quote backslash, ih]
    rfl
  | escape escaped _ ih =>
    rw [List.cons_append, List.cons_append, splitAtQuote_escape _ (ne_u_of_escaped escaped), ih]
    rfl
  | unit digits _ ih =>
    simp only [List.cons_append]
    rw [splitAtQuote_unit _ digits, ih]
    rfl

theorem append_of_splitAtQuote {cs raw rest : List Char}
    (h : Json.splitAtQuote cs = some (raw, rest)) : cs = raw ++ '"' :: rest := by
  fun_induction Json.splitAtQuote cs generalizing raw with
  | case1 => simp at h
  | case2 => simp_all
  | case3 => simp at h
  | case4 cs _ ih =>
    obtain ⟨⟨raw', rest'⟩, cut, heq⟩ := Option.map_eq_some_iff.1 h
    obtain ⟨rfl, rfl⟩ := Prod.mk.inj heq
    exact congrArg (fun cs => '\\' :: 'u' :: cs) (ih cut)
  | case5 c cs _ ih =>
    obtain ⟨⟨raw', rest'⟩, cut, heq⟩ := Option.map_eq_some_iff.1 h
    obtain ⟨rfl, rfl⟩ := Prod.mk.inj heq
    exact congrArg (fun cs => '\\' :: c :: cs) (ih cut)
  | case6 c cs _ _ _ ih =>
    obtain ⟨⟨raw', rest'⟩, cut, heq⟩ := Option.map_eq_some_iff.1 h
    obtain ⟨rfl, rfl⟩ := Prod.mk.inj heq
    exact congrArg (c :: ·) (ih cut)

theorem eq_some_of_map_append {α : Type} {x : Option (List Char × α)} (pre : List Char)
    {raw : List Char} {rest : α}
    (h : x.map (fun (raw, rest) => (pre ++ raw, rest)) = some (pre ++ raw, rest)) :
    x = some (raw, rest) := by
  obtain ⟨⟨raw', rest'⟩, rfl, heq⟩ := Option.map_eq_some_iff.1 h
  obtain ⟨same, rfl⟩ := Prod.mk.inj heq
  rw [List.append_cancel_left same]

/-- What is cut out as a string and has no fault is a spelling of its pieces. The induction follows
the pieces; that no quote stands among them is known from where the literal was cut. -/
theorem spelled_of_piecesOf {raw rest : List Char} {ps : List Piece}
    (cut : Json.splitAtQuote (raw ++ '"' :: rest) = some (raw, rest))
    (whole : piecesOf none (some .malformed) raw = (ps, none)) : Spelled ps raw := by
  fun_induction piecesOf none (some .malformed) raw generalizing ps with
  | case1 =>
    cases whole
    exact .nil
  | case2 => cases whole
  | case3 a b c d cs n digits ps' fault read ih =>
    cases whole
    rw [List.cons_append] at cut
    simp only [List.cons_append] at cut
    rw [splitAtQuote_unit _ digits] at cut
    exact .unit digits (ih (eq_some_of_map_append ['\\', 'u', a, b, c, d] cut) read)
  | case4 => cases whole
  | case5 => split at whole <;> cases whole
  | case6 e cs _ ne c escaped ps' fault read ih =>
    cases whole
    simp only [List.cons_append] at cut
    rw [splitAtQuote_escape _ ne] at cut
    exact .escape escaped (ih (eq_some_of_map_append ['\\', e] cut) read)
  | case7 => cases whole
  | case8 => cases whole
  | case9 c cs alone _ _ paired printable ps' fault read ih =>
    cases whole
    have backslash : c ≠ '\\' := fun same => by
      cases cs with
      | nil => exact alone same rfl
      | cons e cs => exact paired e cs same rfl
    have quote : c ≠ '"' := by
      rintro rfl
      cases cut
    rw [List.cons_append, splitAtQuote_plain _ quote backslash] at cut
    exact .plain (Nat.not_lt.1 printable) quote backslash
      (ih (eq_some_of_map_append [c] cut) read)

theorem spelled_of_splitAtQuote {cs raw rest : List Char}
    (cut : Json.splitAtQuote cs = some (raw, rest)) (whole : (closed raw).skipFault? = none) :
    cs = raw ++ '"' :: rest ∧ ∃ ps, Spelled ps raw := by
  have text := append_of_splitAtQuote cut
  rw [text] at cut
  refine ⟨text, (closed raw).pieces.1, spelled_of_piecesOf cut ?_⟩
  exact Prod.ext rfl whole

/-- A string that the end of the text cuts has a fault. -/
theorem isSome_skipFault?_unclosed (raw : List Char) :
    (unclosed raw).skipFault?.isSome = true := by
  show (piecesOf (some .ended) (some .ended) raw).2.isSome = true
  fun_induction piecesOf (some .ended) (some .ended) raw <;> simp_all
  split <;> rfl

theorem exists_closed_of_whole {q : Quoted} (whole : q.skipFault? = none) :
    ∃ raw, q = .closed raw := by
  cases q with
  | closed raw => exact ⟨raw, rfl⟩
  | unclosed raw =>
    have := isSome_skipFault?_unclosed raw
    rw [whole] at this
    cases this

/-- A string without a fault has been cut out at its quote, and is a spelling of its pieces. -/
theorem spelled_of_scan {q : Quoted} {cs rest : List Char} (cut : scan cs = (q, rest))
    (whole : q.skipFault? = none) :
    ∃ raw ps, q = .closed raw ∧ cs = raw ++ '"' :: rest ∧ Spelled ps raw := by
  rw [scan] at cut
  split at cut
  · next raw rest' found =>
    cases cut
    obtain ⟨text, ps, spelled⟩ := spelled_of_splitAtQuote found whole
    exact ⟨raw, ps, rfl, text, spelled⟩
  · cases cut
    obtain ⟨raw, ⟨⟩⟩ := exists_closed_of_whole whole

/-! ## Strings that are read -/

theorem fault_of_join {ps : List Piece} {fault : Option Fault} {cs : List Char}
    (h : join ps fault = .ok cs) : fault = none := by
  fun_induction join ps fault generalizing cs with
  | case1 => rfl
  | case2 | case5 | case7 | case8 => cases h
  | case3 _ _ _ ih | case4 _ _ _ _ _ ih | case6 _ _ _ _ _ _ ih | case9 _ _ _ _ _ _ ih =>
    obtain ⟨_, more, -⟩ := map_eq_ok_iff.1 h
    exact ih more

/-- A string that is read has no fault. -/
theorem skipFault?_of_decode {q : Quoted} {s : String} (h : q.decode = .ok s) :
    q.skipFault? = none := by
  rw [decode] at h
  cases read : join q.pieces.1 q.pieces.2 with
  | error fault =>
    rw [read] at h
    cases h
  | ok cs => exact fault_of_join read

end Quoted

end HierarchyAccessors.Json
