import HierarchyAccessors.Proofs.Json.WrittenTree

/-!
# Texts that are cut short

What follows a text does not change its tokens, unless the last of them is a number, which may go on
(`Spells.tokens_append`). So if a text other than a number can be continued to a text, it is white
space that has been added (`Tree.SpelledBy.of_append`): a text of a list or an object does not begin
with another one.

A written object ends with its brace, where no white space follows, so nothing that is cut off it at
the end leaves a text (`Value.eq_of_spelled_prefix`).
-/

namespace HierarchyAccessors.Json

open Token (Blank)

/-! ## Tokens of a text that goes on -/

theorem EndsNumber.append {front : List Char} (h : EndsNumber front) (ne : front ≠ [])
    (rest : List Char) : EndsNumber (front ++ rest) := by
  obtain ⟨c, cs, rfl⟩ := List.exists_cons_of_ne_nil ne
  exact h

theorem Spells.tokens_append {ts : List Token} {front : List Char} (h : Spells ts front)
    (last : ∀ n, ts.getLast? ≠ some (.number n)) (rest : List Char) :
    Json.tokens (front ++ rest) = ts ++ Json.tokens rest := by
  induction h with
  | nil space => rw [tokens_blank_append space, List.nil_append]
  | @cons t ts blank text later space spelled ends more ih =>
    have ends' : ∀ n, t = .number n → EndsNumber (later ++ rest) := by
      intro n same
      refine (ends n same).append (fun nothing => ?_) rest
      -- Nothing is left for more tokens, so the number is the last one.
      have none : ts = [] := by rw [← more.tokens_eq, nothing, Json.tokens]
      exact last n (by rw [none, same, List.getLast?_singleton])
    have last' : ∀ n, ts.getLast? ≠ some (.number n) := by
      intro n atEnd
      refine last n ?_
      rw [List.getLast?_cons, atEnd, Option.getD_some]
    rw [List.append_assoc, tokens_blank_append space, List.append_assoc,
      tokens_spelled_append spelled ends', ih last', List.cons_append]

theorem blank_of_tokens_eq_nil {cs : List Char} (h : Json.tokens cs = []) : Blank cs := by
  have spells : Spells (Json.tokens cs) cs := spells_tokens (by simp [h])
  rw [h] at spells
  cases spells with
  | nil space => exact space

/-! ## The last token of a tree -/

theorem Ending.token_ne_number {bracket : Token} (h : ∀ n, bracket ≠ .number n) (ending : Ending)
    (n : Numeral) : ending.token bracket ≠ .number n := by
  cases ending with
  | closed => exact h n
  | cut | unkeyed => exact nofun

namespace Tree

theorem getLast?_itemsTokens (ending : Ending) (ts : List Tree) :
    (itemsTokens ending ts).getLast? = some (ending.token .closeBracket) := by
  induction ts with
  | nil => rfl
  | cons t ts ih => simp [itemsTokens, List.getLast?_cons, List.getLast?_append, ih]

theorem getLast?_entriesTokens (ending : Ending) (es : List (Quoted × Tree)) :
    (entriesTokens ending es).getLast? = some (ending.token .closeBrace) := by
  induction es with
  | nil => rfl
  | cons e es ih => simp [entriesTokens, List.getLast?_cons, List.getLast?_append, ih]

/-- Only the tokens of a number end with one. -/
theorem getLast?_tokens_ne_number {t : Tree} (h : ∀ n, t ≠ number n) (n : Numeral) :
    t.tokens.getLast? ≠ some (.number n) := by
  have bracket (ending : Ending) : ending.token .closeBracket ≠ .number n :=
    ending.token_ne_number (by simp) n
  have brace (ending : Ending) : ending.token .closeBrace ≠ .number n :=
    ending.token_ne_number (by simp) n
  match t with
  | number m => exact absurd rfl (h m)
  | array [] ending => simpa [tokens] using bracket ending
  | array (t :: ts) ending =>
    simpa [tokens, List.getLast?_cons, List.getLast?_append, getLast?_itemsTokens]
      using bracket ending
  | object [] ending => simpa [tokens] using brace ending
  | object (e :: es) ending =>
    simpa [tokens, List.getLast?_cons, List.getLast?_append, getLast?_entriesTokens]
      using brace ending
  | null | bool _ | string _ | broken _ _ | absent => simp [tokens]

/-! ## Texts within texts -/

/-- A text that is continued to a text is one of the same tree, and is continued by white space. -/
theorem SpelledBy.of_append {t t' : Tree} {front rest : String} (h : t.SpelledBy front)
    (no_number : ∀ n, t ≠ number n) (h' : t'.SpelledBy (front ++ rest)) :
    t = t' ∧ Blank rest.toList := by
  have cut := Spells.tokens_append h (getLast?_tokens_ne_number no_number) rest.toList
  rw [← String.toList_append, Spells.tokens_eq h'] at cut
  have arranged := want_tokens [] (Json.tokens rest.toList) t h.whole
  rw [← cut, ← ofTokens, ofTokens_tokens h'.whole, resume, Prod.mk.injEq] at arranged
  exact ⟨arranged.1.symm, blank_of_tokens_eq_nil arranged.2.symm⟩

end Tree

/-! ## Written objects -/

namespace Value

theorem getLast?_prettyEntries (depth : Nat) (entries : List (String × Value)) :
    (prettyEntries depth entries).getLast? = some '\x7d' := by
  induction entries with
  | nil => simp [prettyEntries]
  | cons e entries ih => simp [prettyEntries, List.getLast?_cons, List.getLast?_append, ih]

theorem getLast?_pretty_object (entries : List (String × Value)) :
    (object entries).pretty.toList.getLast? = some '\x7d' := by
  rw [pretty, String.toList_ofList]
  cases entries with
  | nil => rfl
  | cons e entries =>
    simp [prettyText, List.getLast?_cons, List.getLast?_append, getLast?_prettyEntries]

/-- No beginning of a written object is the text of a tree, unless it is all of it or a number. -/
theorem eq_of_spelled_prefix {entries : List (String × Value)} {t : Tree} {text : String}
    (front : text.toList <+: (object entries).pretty.toList) (h : t.SpelledBy text)
    (no_number : ∀ n, t ≠ .number n) : text = (object entries).pretty := by
  obtain ⟨rest, parts⟩ := front
  have whole : text ++ String.ofList rest = (object entries).pretty := by
    rw [← String.toList_inj, String.toList_append, String.toList_ofList, parts]
  have spelled := (object entries).spelledBy_pretty
  rw [← whole] at spelled
  obtain ⟨-, blank⟩ := h.of_append no_number spelled
  rw [String.toList_ofList] at blank
  cases last : rest.getLast? with
  | none =>
    rw [List.getLast?_eq_none_iff] at last
    rw [← String.toList_inj, ← parts, last, List.append_nil]
  | some c =>
    have brace := getLast?_pretty_object entries
    rw [← parts, List.getLast?_append, last, Option.some_or, Option.some_inj] at brace
    have space := blank c (List.mem_of_getLast? last)
    rw [brace] at space
    exact absurd space (by decide)

end Value

end HierarchyAccessors.Json
