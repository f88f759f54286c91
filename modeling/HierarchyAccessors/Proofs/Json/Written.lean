import HierarchyAccessors.Proofs.Json.Integers
import HierarchyAccessors.Proofs.Json.Spelling

/-!
# The tokens of a written value

The two written forms of a value differ in white space alone: both are cut into the tokens that
`Value.tokens` lists (`tokens_compact`, `tokens_pretty`).
-/

namespace HierarchyAccessors.Json

namespace Value

/-! ## Tokens -/

/-- The token of a literal. -/
def stringToken (s : String) : Token :=
  .string (.closed (encodeRaw s.toList))

mutual

/-- The tokens of a written value. -/
def tokens : Value → List Token
  | null => [.null]
  | bool b => [.bool b]
  | integer n => [.number (.ofInt n)]
  | string s => [stringToken s]
  | array [] => [.openBracket, .closeBracket]
  | array (v :: vs) => .openBracket :: (v.tokens ++ itemsTokens vs)
  | object [] => [.openBrace, .closeBrace]
  | object ((key, v) :: entries) =>
    .openBrace :: stringToken key :: .colon :: (v.tokens ++ entriesTokens entries)

/-- The tokens of the items after the first, and of the closing bracket. -/
def itemsTokens : List Value → List Token
  | [] => [.closeBracket]
  | v :: vs => .comma :: (v.tokens ++ itemsTokens vs)

/-- The tokens of the entries after the first, and of the closing brace. -/
def entriesTokens : List (String × Value) → List Token
  | [] => [.closeBrace]
  | (key, v) :: entries =>
    .comma :: stringToken key :: .colon :: (v.tokens ++ entriesTokens entries)

end

/-! ## Cutting a written value into tokens -/

theorem tokens_closeBracket (cs : List Char) :
    Json.tokens (']' :: cs) = .closeBracket :: Json.tokens cs :=
  tokens_cons_scan rfl rfl

theorem tokens_closeBrace (cs : List Char) :
    Json.tokens ('\x7d' :: cs) = .closeBrace :: Json.tokens cs :=
  tokens_cons_scan rfl rfl

theorem tokens_openBracket (cs : List Char) :
    Json.tokens ('[' :: cs) = .openBracket :: Json.tokens cs :=
  tokens_cons_scan rfl rfl

theorem tokens_openBrace (cs : List Char) :
    Json.tokens ('\x7b' :: cs) = .openBrace :: Json.tokens cs :=
  tokens_cons_scan rfl rfl

theorem tokens_comma (cs : List Char) : Json.tokens (',' :: cs) = .comma :: Json.tokens cs :=
  tokens_cons_scan rfl rfl

theorem tokens_colon (cs : List Char) : Json.tokens (':' :: cs) = .colon :: Json.tokens cs :=
  tokens_cons_scan rfl rfl

theorem tokens_nullText (rest : List Char) :
    Json.tokens (nullText ++ rest) = .null :: Json.tokens rest :=
  tokens_cons_scan rfl rfl

theorem tokens_boolText (b : Bool) (rest : List Char) :
    Json.tokens (boolText b ++ rest) = .bool b :: Json.tokens rest := by
  cases b <;> exact tokens_cons_scan rfl rfl

theorem tokens_encodeString (s : String) (rest : List Char) :
    Json.tokens (encodeString s ++ rest) = stringToken s :: Json.tokens rest := by
  have scan := Quoted.scan_encodeRaw_append s.toList rest
  have text : encodeString s ++ rest = '"' :: (encodeRaw s.toList ++ '"' :: rest) := by
    simp [encodeString]
  rw [text]
  exact tokens_cons_scan rfl (by simp only [Token.scan, scan]; rfl)

theorem tokens_integerText (n : Int) {rest : List Char} (h : EndsNumber rest) :
    Json.tokens (integerText n ++ rest) = .number (.ofInt n) :: Json.tokens rest :=
  tokens_number_append (Numeral.spelled_integerText n) h

theorem endsNumber_compactItems (vs : List Value) (rest : List Char) :
    EndsNumber (compactItems vs ++ rest) := by
  cases vs <;> exact endsNumber_cons (by decide)

theorem endsNumber_compactEntries (entries : List (String × Value)) (rest : List Char) :
    EndsNumber (compactEntries entries ++ rest) := by
  cases entries <;> exact endsNumber_cons (by decide)

mutual

theorem tokens_compactText : (v : Value) → {rest : List Char} → EndsNumber rest →
    Json.tokens (v.compactText ++ rest) = v.tokens ++ Json.tokens rest
  | null, rest, _ => tokens_nullText rest
  | bool b, rest, _ => tokens_boolText b rest
  | integer n, _, h => tokens_integerText n h
  | string s, rest, _ => tokens_encodeString s rest
  | array [], rest, _ => by
    simp only [compactText, tokens, List.cons_append, List.nil_append, tokens_openBracket,
      tokens_closeBracket]
  | array (v :: vs), rest, h => by
    have items := tokens_compactItems vs h
    have value := tokens_compactText v (endsNumber_compactItems vs rest)
    simp only [compactText, tokens, List.cons_append, List.append_assoc, tokens_openBracket, value,
      items]
  | object [], rest, _ => by
    simp only [compactText, tokens, List.cons_append, List.nil_append, tokens_openBrace,
      tokens_closeBrace]
  | object ((key, v) :: entries), rest, h => by
    have more := tokens_compactEntries entries h
    have value := tokens_compactText v (endsNumber_compactEntries entries rest)
    simp only [compactText, tokens, List.cons_append, List.append_assoc, tokens_openBrace,
      tokens_encodeString, tokens_colon, value, more]

theorem tokens_compactItems : (vs : List Value) → {rest : List Char} → EndsNumber rest →
    Json.tokens (compactItems vs ++ rest) = itemsTokens vs ++ Json.tokens rest
  | [], rest, _ => tokens_closeBracket rest
  | v :: vs, rest, h => by
    have items := tokens_compactItems vs h
    have value := tokens_compactText v (endsNumber_compactItems vs rest)
    simp only [compactItems, itemsTokens, List.cons_append, List.append_assoc, tokens_comma, value,
      items]

theorem tokens_compactEntries : (entries : List (String × Value)) → {rest : List Char} →
    EndsNumber rest →
    Json.tokens (compactEntries entries ++ rest) = entriesTokens entries ++ Json.tokens rest
  | [], rest, _ => tokens_closeBrace rest
  | (key, v) :: entries, rest, h => by
    have more := tokens_compactEntries entries h
    have value := tokens_compactText v (endsNumber_compactEntries entries rest)
    simp only [compactEntries, entriesTokens, List.cons_append, List.append_assoc, tokens_comma,
      tokens_encodeString, tokens_colon, value, more]

end

/-! ## With one item a line -/

theorem tokens_newline (depth : Nat) (cs : List Char) :
    Json.tokens (newline depth ++ cs) = Json.tokens cs := by
  rw [newline, List.cons_append, tokens_cons_space rfl]
  induction 2 * depth with
  | zero => rfl
  | succ n ih => rw [List.replicate_succ, List.cons_append, tokens_cons_space rfl, ih]

theorem endsNumber_prettyItems (depth : Nat) (vs : List Value) (rest : List Char) :
    EndsNumber (prettyItems depth vs ++ rest) := by
  cases vs <;> exact endsNumber_cons (by decide)

theorem endsNumber_prettyEntries (depth : Nat) (entries : List (String × Value))
    (rest : List Char) : EndsNumber (prettyEntries depth entries ++ rest) := by
  cases entries <;> exact endsNumber_cons (by decide)

theorem tokens_space (cs : List Char) : Json.tokens (' ' :: cs) = Json.tokens cs :=
  tokens_cons_space rfl

mutual

theorem tokens_prettyText (depth : Nat) : (v : Value) → {rest : List Char} → EndsNumber rest →
    Json.tokens (v.prettyText depth ++ rest) = v.tokens ++ Json.tokens rest
  | null, rest, _ => tokens_nullText rest
  | bool b, rest, _ => tokens_boolText b rest
  | integer n, _, h => tokens_integerText n h
  | string s, rest, _ => tokens_encodeString s rest
  | array [], rest, _ => by
    simp only [prettyText, tokens, List.cons_append, List.nil_append, tokens_openBracket,
      tokens_closeBracket]
  | array (v :: vs), rest, h => by
    have items := tokens_prettyItems depth vs h
    have value := tokens_prettyText (depth + 1) v (endsNumber_prettyItems depth vs rest)
    simp only [prettyText, tokens, List.cons_append, List.append_assoc, tokens_openBracket,
      tokens_newline, value, items]
  | object [], rest, _ => by
    simp only [prettyText, tokens, List.cons_append, List.nil_append, tokens_openBrace,
      tokens_closeBrace]
  | object ((key, v) :: entries), rest, h => by
    have more := tokens_prettyEntries depth entries h
    have value := tokens_prettyText (depth + 1) v (endsNumber_prettyEntries depth entries rest)
    simp only [prettyText, tokens, List.cons_append, List.append_assoc, List.nil_append,
      tokens_openBrace, tokens_newline, tokens_encodeString, tokens_colon, tokens_space, value,
      more]

theorem tokens_prettyItems (depth : Nat) : (vs : List Value) → {rest : List Char} →
    EndsNumber rest →
    Json.tokens (prettyItems depth vs ++ rest) = itemsTokens vs ++ Json.tokens rest
  | [], rest, _ => by
    simp only [prettyItems, itemsTokens, List.append_assoc, List.cons_append, List.nil_append,
      tokens_newline, tokens_closeBracket]
  | v :: vs, rest, h => by
    have items := tokens_prettyItems depth vs h
    have value := tokens_prettyText (depth + 1) v (endsNumber_prettyItems depth vs rest)
    simp only [prettyItems, itemsTokens, List.cons_append, List.append_assoc, tokens_comma,
      tokens_newline, value, items]

theorem tokens_prettyEntries (depth : Nat) : (entries : List (String × Value)) →
    {rest : List Char} → EndsNumber rest →
    Json.tokens (prettyEntries depth entries ++ rest) = entriesTokens entries ++ Json.tokens rest
  | [], rest, _ => by
    simp only [prettyEntries, entriesTokens, List.append_assoc, List.cons_append, List.nil_append,
      tokens_newline, tokens_closeBrace]
  | (key, v) :: entries, rest, h => by
    have more := tokens_prettyEntries depth entries h
    have value := tokens_prettyText (depth + 1) v (endsNumber_prettyEntries depth entries rest)
    simp only [prettyEntries, entriesTokens, List.cons_append, List.append_assoc, List.nil_append,
      tokens_comma, tokens_newline, tokens_encodeString, tokens_colon, tokens_space, value, more]

end

/-- The tokens of the text without white space. -/
theorem tokens_compact (v : Value) : Json.tokens v.compact.toList = v.tokens := by
  have := tokens_compactText v endsNumber_nil
  rw [List.append_nil] at this
  rw [compact, String.toList_ofList, this, Json.tokens, List.append_nil]

/-- The tokens of the text with one item a line. -/
theorem tokens_pretty (v : Value) : Json.tokens v.pretty.toList = v.tokens := by
  have := tokens_prettyText 0 v endsNumber_nil
  rw [List.append_nil] at this
  rw [pretty, String.toList_ofList, this, Json.tokens, List.append_nil]

end Value

end HierarchyAccessors.Json
