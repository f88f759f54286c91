import HierarchyAccessors.Json.Token
import HierarchyAccessors.Proofs.Json.Literals

/-!
# The grammar of tokens

`Token.Spelled` relates a token to its spellings and `Spells` a list of tokens to its texts: the
tokens one after the other, with any white space before, between and after them. Cutting a text
into tokens inverts this relation: every text of a list of tokens is cut into them
(`Spells.tokens_eq`), and a text that is cut into tokens without a fault is a text of them
(`spells_tokens`).
-/

namespace HierarchyAccessors.Json

namespace Token

/-- The spellings of a token. -/
inductive Spelled : Token → List Char → Prop
  | openBrace : Spelled openBrace ['\x7b']
  | closeBrace : Spelled closeBrace ['\x7d']
  | openBracket : Spelled openBracket ['[']
  | closeBracket : Spelled closeBracket [']']
  | comma : Spelled comma [',']
  | colon : Spelled colon [':']
  | null : Spelled null ['n', 'u', 'l', 'l']
  | yes : Spelled (bool true) ['t', 'r', 'u', 'e']
  | no : Spelled (bool false) ['f', 'a', 'l', 's', 'e']
  | number {n : Numeral} {text : List Char} (literal : n.Spelled text) : Spelled (number n) text
  | string {ps : List Quoted.Piece} {raw : List Char} (literal : Quoted.Spelled ps raw) :
      Spelled (string (.closed raw)) ('"' :: (raw ++ ['"']))

/-- A text of white space alone. -/
def Blank (cs : List Char) : Prop :=
  ∀ c ∈ cs, isSpace c = true

/-- Nothing of the token is missing or wrong. -/
def Whole : Token → Prop
  | string q => q.skipFault? = none
  | broken _ _ => False
  | _ => True

@[simp] theorem whole_openBrace : Whole openBrace := trivial
@[simp] theorem whole_closeBrace : Whole closeBrace := trivial
@[simp] theorem whole_openBracket : Whole openBracket := trivial
@[simp] theorem whole_closeBracket : Whole closeBracket := trivial
@[simp] theorem whole_comma : Whole comma := trivial
@[simp] theorem whole_colon : Whole colon := trivial
@[simp] theorem whole_null : Whole null := trivial
@[simp] theorem whole_bool (b : Bool) : Whole (bool b) := trivial
@[simp] theorem whole_number (n : Numeral) : Whole (number n) := trivial
@[simp] theorem whole_string {q : Quoted} : Whole (string q) ↔ q.skipFault? = none := .rfl
@[simp] theorem not_whole_broken (read skipped : Fault) : ¬Whole (broken read skipped) := id

end Token

open Token (Blank)

/-- The texts of a list of tokens. After a number the text must not go on with that number. -/
inductive Spells : List Token → List Char → Prop
  | nil {blank : List Char} (space : Blank blank) : Spells [] blank
  | cons {t : Token} {ts : List Token} {blank text rest : List Char} (space : Blank blank)
      (spelled : t.Spelled text) (ends : ∀ n, t = .number n → EndsNumber rest)
      (more : Spells ts rest) : Spells (t :: ts) (blank ++ (text ++ rest))

/-! ## Cutting a text of given tokens -/

theorem tokens_cons_space {c : Char} {cs : List Char} (h : Token.isSpace c = true) :
    tokens (c :: cs) = tokens cs := by
  rw [tokens, if_pos h]

theorem tokens_cons_scan {c : Char} {cs rest : List Char} {t : Token}
    (h : Token.isSpace c = false) (scan : Token.scan c cs = (t, rest)) :
    tokens (c :: cs) = t :: tokens rest := by
  rw [tokens, if_neg (by simp [h]), scan]

theorem tokens_blank_append {blank : List Char} (space : Blank blank) (cs : List Char) :
    tokens (blank ++ cs) = tokens cs := by
  induction blank with
  | nil => rfl
  | cons c blank ih =>
    obtain ⟨first, more⟩ := List.forall_mem_cons.1 space
    rw [List.cons_append, tokens_cons_space first, ih more]

/-- A token that begins as a number is one. -/
theorem scan_eq_ofNumeral {c : Char} (h : c = '-' ∨ c.isDigit = true) (cs : List Char) :
    Token.isSpace c = false ∧ Token.scan c cs = Token.ofNumeral (c :: cs) := by
  have cases : c = '-' ∨ c ∈ ['0', '1', '2', '3', '4', '5', '6', '7', '8', '9'] := by
    refine h.imp_right fun digit => ?_
    have range : 48 ≤ c.toNat ∧ c.toNat ≤ 57 := by
      simpa [Char.isDigit, UInt32.le_iff_toNat_le] using digit
    have all : ∀ n, 48 ≤ n → n ≤ 57 →
        Char.ofNat n ∈ ['0', '1', '2', '3', '4', '5', '6', '7', '8', '9'] := by decide
    rw [← Char.ofNat_toNat c]
    exact all c.toNat range.1 range.2
  simp only [List.mem_cons, List.not_mem_nil, or_false] at cases
  rcases cases with rfl | rfl | rfl | rfl | rfl | rfl | rfl | rfl | rfl | rfl | rfl <;>
    exact ⟨rfl, rfl⟩

theorem Numeral.Spelled.exists_cons {n : Numeral} {text : List Char} (h : n.Spelled text) :
    ∃ c cs, text = c :: cs ∧ (c = '-' ∨ c.isDigit = true) := by
  obtain ⟨negative, ⟨⟨ne, all⟩, -⟩, -, -⟩ := h
  cases negative with
  | true => exact ⟨'-', _, rfl, .inl rfl⟩
  | false =>
    obtain ⟨d, ds, rfl⟩ := List.exists_cons_of_ne_nil ne
    exact ⟨d, _, rfl, .inr (all d List.mem_cons_self)⟩

theorem tokens_number_append {n : Numeral} {text rest : List Char} (h : n.Spelled text)
    (ends : EndsNumber rest) : tokens (text ++ rest) = .number n :: tokens rest := by
  have cut := h.scan ends
  obtain ⟨c, cs, rfl, first⟩ := h.exists_cons
  obtain ⟨space, scan⟩ := scan_eq_ofNumeral first (cs ++ rest)
  rw [List.cons_append] at cut ⊢
  refine tokens_cons_scan space ?_
  rw [scan, Token.ofNumeral, cut]

theorem tokens_string_append {ps : List Quoted.Piece} {raw : List Char} (h : Quoted.Spelled ps raw)
    (rest : List Char) :
    tokens ('"' :: (raw ++ '"' :: rest)) = .string (.closed raw) :: tokens rest := by
  have cut : Quoted.scan (raw ++ '"' :: rest) = (.closed raw, rest) := by
    rw [Quoted.scan, h.splitAtQuote rest]
  refine tokens_cons_scan rfl ?_
  simp only [Token.scan, cut]

theorem tokens_spelled_append {t : Token} {text rest : List Char} (spelled : t.Spelled text)
    (ends : ∀ n, t = .number n → EndsNumber rest) :
    tokens (text ++ rest) = t :: tokens rest := by
  cases spelled with
  | number literal => exact tokens_number_append literal (ends _ rfl)
  | string literal =>
    rw [List.cons_append, List.append_assoc]
    exact tokens_string_append literal rest
  | _ => exact tokens_cons_scan rfl rfl

/-- A text of some tokens is cut into those tokens. -/
theorem Spells.tokens_eq {ts : List Token} {cs : List Char} (h : Spells ts cs) :
    tokens cs = ts := by
  induction h with
  | nil space =>
    have := tokens_blank_append space []
    rw [List.append_nil] at this
    rw [this, tokens]
  | cons space spelled ends _ ih =>
    rw [tokens_blank_append space, tokens_spelled_append spelled ends, ih]

theorem Token.Spelled.whole {t : Token} {text : List Char} (h : t.Spelled text) : t.Whole := by
  cases h with
  | string literal => exact congrArg Prod.snd literal.pieces
  | _ => trivial

theorem Spells.whole {ts : List Token} {cs : List Char} (h : Spells ts cs) :
    ∀ t ∈ ts, t.Whole := by
  induction h with
  | nil => simp
  | cons _ spelled _ _ ih => exact List.forall_mem_cons.2 ⟨spelled.whole, ih⟩

/-! ## What a text without a fault is made of -/

namespace Token

theorem append_of_word {token t : Token} {ws cs rest : List Char}
    (h : word token ws cs = (t, rest)) (whole : t.Whole) : t = token ∧ cs = ws ++ rest := by
  fun_induction word token ws cs with
  | case1 =>
    cases h
    exact ⟨rfl, rfl⟩
  | case2 =>
    cases h
    exact absurd whole id
  | case3 w ws cs ih =>
    obtain ⟨same, text⟩ := ih h
    exact ⟨same, congrArg (_ :: ·) text⟩
  | case4 =>
    cases h
    exact absurd whole id

/-- A token without a fault is a spelling of itself that has been cut off the text. -/
theorem spelled_of_scan {c : Char} {cs rest : List Char} {t : Token}
    (h : scan c cs = (t, rest)) (whole : t.Whole) :
    ∃ text, c :: cs = text ++ rest ∧ t.Spelled text ∧
      ∀ n, t = .number n → EndsDigits rest := by
  unfold scan at h
  split at h
  case h_7 =>
    obtain ⟨rfl, rfl⟩ := append_of_word h whole
    exact ⟨_, rfl, .null, nofun⟩
  case h_8 =>
    obtain ⟨rfl, rfl⟩ := append_of_word h whole
    exact ⟨_, rfl, .yes, nofun⟩
  case h_9 =>
    obtain ⟨rfl, rfl⟩ := append_of_word h whole
    exact ⟨_, rfl, .no, nofun⟩
  case h_10 =>
    generalize cut : Quoted.scan cs = cutOff at h
    cases h
    obtain ⟨raw, ps, same, rfl, literal⟩ := Quoted.spelled_of_scan cut whole
    rw [same]
    exact ⟨'"' :: (raw ++ ['"']), by simp, .string literal, nofun⟩
  case h_11 =>
    split at h
    · unfold ofNumeral at h
      split at h
      · next n rest' cut =>
        cases h
        obtain ⟨text, eq, literal, ends⟩ := Numeral.spelled_of_scan cut
        exact ⟨text, eq, .number literal, fun _ _ => ends⟩
      · cases h
        exact absurd whole id
    · cases h
      exact absurd whole id
  all_goals
    cases h
    exact ⟨[_], rfl, by constructor, nofun⟩

end Token

/-- What could carry a number on begins no token. -/
theorem endsNumber_of_whole {cs : List Char} (ends : EndsDigits cs)
    (whole : ∀ t ∈ tokens cs, t.Whole) : EndsNumber cs := by
  cases cs with
  | nil => exact endsNumber_nil
  | cons c cs =>
    have ne {d : Char} (space : Token.isSpace d = false)
        (scan : Token.scan d cs = (.broken .malformed .malformed, [])) : c ≠ d := by
      rintro rfl
      rw [tokens_cons_scan space scan] at whole
      exact whole _ List.mem_cons_self
    exact endsNumber_cons ⟨ends c rfl, ne rfl rfl, ne rfl rfl, ne rfl rfl⟩

theorem Spells.cons_space {c : Char} {ts : List Token} {cs : List Char}
    (space : Token.isSpace c = true) (h : Spells ts cs) : Spells ts (c :: cs) := by
  cases h with
  | nil blank => exact .nil (List.forall_mem_cons.2 ⟨space, blank⟩)
  | cons blank spelled ends more =>
    rw [← List.cons_append]
    exact .cons (List.forall_mem_cons.2 ⟨space, blank⟩) spelled ends more

/-- A text that is cut into tokens without a fault is a text of those tokens. -/
theorem spells_tokens {cs : List Char} (whole : ∀ t ∈ tokens cs, t.Whole) :
    Spells (tokens cs) cs := by
  fun_induction tokens cs with
  | case1 => exact .nil (by simp [Blank])
  | case2 c cs space ih => exact (ih whole).cons_space space
  | case3 c cs space ih =>
    obtain ⟨first, more⟩ := List.forall_mem_cons.1 whole
    generalize scan : Token.scan c cs = cutOff at *
    obtain ⟨t, rest⟩ := cutOff
    obtain ⟨text, eq, spelled, ends⟩ := Token.spelled_of_scan scan first
    rw [eq]
    have space : Blank [] := by simp [Blank]
    exact .cons space spelled (fun n same => endsNumber_of_whole (ends n same) more) (ih more)

end HierarchyAccessors.Json
