import HierarchyAccessors.Json.Reader
import HierarchyAccessors.Proofs.Json.Spelling

/-!
# The texts of a tree

A tree of which nothing is missing (`Tree.Whole`) has texts: the texts of its tokens
(`Tree.SpelledBy`). The tokens of a whole tree are arranged into that tree again
(`Tree.ofTokens_tokens`), so a text is read as the tree that it spells (`document_of_spelled`), and
nests as deep as that tree does (`Tree.SpelledBy.textNesting_eq`).
-/

namespace HierarchyAccessors.Json

/-- The token at the end of a container. Where the bracket is missing there is none to write, and
a token without spelling takes its place. -/
def Ending.token (bracket : Token) : Ending → Token
  | closed => bracket
  | cut fault => .broken fault fault
  | unkeyed _ => .broken .malformed .malformed

theorem Ending.fault?_eq_none_iff {ending : Ending} : ending.fault? = none ↔ ending = .closed := by
  cases ending with
  | unkeyed next => cases next <;> simp [fault?]
  | _ => simp [fault?]

theorem Ending.whole_token_iff {bracket : Token} (whole : bracket.Whole) (ending : Ending) :
    (ending.token bracket).Whole ↔ ending.fault? = none := by
  rw [fault?_eq_none_iff]
  cases ending <;> simp [token, whole]

namespace Tree

mutual

/-- The tokens of a tree. -/
def tokens : Tree → List Token
  | null => [.null]
  | bool b => [.bool b]
  | number n => [.number n]
  | string q => [.string q]
  | array [] ending => [.openBracket, ending.token .closeBracket]
  | array (t :: ts) ending => .openBracket :: (t.tokens ++ itemsTokens ending ts)
  | object [] ending => [.openBrace, ending.token .closeBrace]
  | object ((key, t) :: es) ending =>
    .openBrace :: .string key :: .colon :: (t.tokens ++ entriesTokens ending es)
  | broken read skipped => [.broken read skipped]
  | absent => [.broken .ended .ended]

/-- The tokens of the items after the first, and of the closing bracket. -/
def itemsTokens (ending : Ending) : List Tree → List Token
  | [] => [ending.token .closeBracket]
  | t :: ts => .comma :: (t.tokens ++ itemsTokens ending ts)

/-- The tokens of the entries after the first, and of the closing brace. -/
def entriesTokens (ending : Ending) : List (Quoted × Tree) → List Token
  | [] => [ending.token .closeBrace]
  | (key, t) :: es => .comma :: .string key :: .colon :: (t.tokens ++ entriesTokens ending es)

end

/-- Nothing of the tree is missing or wrong: it can be passed over. -/
def Whole (t : Tree) : Prop :=
  t.skipFault? = none

/-- The text spells the tree, with any white space between the tokens. -/
def SpelledBy (t : Tree) (text : String) : Prop :=
  Spells t.tokens text.toList

/-! ## Whole trees have whole tokens -/

theorem skipItems?_eq_none_iff {ts : List Tree} : skipItems? ts = none ↔ ∀ t ∈ ts, t.Whole := by
  induction ts with
  | nil => simp [skipItems?]
  | cons t ts ih => simp [skipItems?, ih, Whole]

theorem skipEntries?_eq_none_iff {es : List (Quoted × Tree)} :
    skipEntries? es = none ↔ ∀ e ∈ es, e.1.skipFault? = none ∧ e.2.Whole := by
  induction es with
  | nil => simp [skipEntries?]
  | cons e es ih => simp [skipEntries?, ih, Whole, and_assoc]

theorem whole_array_iff {ts : List Tree} {ending : Ending} :
    (array ts ending).Whole ↔ (∀ t ∈ ts, t.Whole) ∧ ending = .closed := by
  rw [Whole, skipFault?, Option.or_eq_none_iff, skipItems?_eq_none_iff, Ending.fault?_eq_none_iff]

theorem whole_object_iff {es : List (Quoted × Tree)} {ending : Ending} :
    (object es ending).Whole ↔
      (∀ e ∈ es, e.1.skipFault? = none ∧ e.2.Whole) ∧ ending = .closed := by
  rw [Whole, skipFault?, Option.or_eq_none_iff, skipEntries?_eq_none_iff,
    Ending.fault?_eq_none_iff]

theorem not_whole_broken (read skipped : Fault) : ¬(broken read skipped).Whole := nofun

theorem not_whole_absent : ¬absent.Whole := nofun

mutual

theorem whole_tokens_iff : (t : Tree) → ((∀ k ∈ t.tokens, k.Whole) ↔ t.Whole)
  | null | bool _ | number _ | string _ => by simp [tokens, Whole, skipFault?]
  | array [] ending => by
    have close := Ending.whole_token_iff Token.whole_closeBracket ending
    simp [tokens, Whole, skipFault?, skipItems?, close]
  | array (t :: ts) ending => by
    have first := whole_tokens_iff t
    have more := whole_itemsTokens_iff ending ts
    simp [tokens, Whole, skipFault?, skipItems?, or_imp, forall_and, first, more, and_assoc]
  | object [] ending => by
    have close := Ending.whole_token_iff Token.whole_closeBrace ending
    simp [tokens, Whole, skipFault?, skipEntries?, close]
  | object ((key, t) :: es) ending => by
    have first := whole_tokens_iff t
    have more := whole_entriesTokens_iff ending es
    simp [tokens, Whole, skipFault?, skipEntries?, or_imp, forall_and, first, more, and_assoc]
  | broken _ _ => by simp [tokens, not_whole_broken]
  | absent => by simp [tokens, not_whole_absent]

theorem whole_itemsTokens_iff (ending : Ending) : (ts : List Tree) →
    ((∀ k ∈ itemsTokens ending ts, k.Whole) ↔ skipItems? ts = none ∧ ending.fault? = none)
  | [] => by
    have close := Ending.whole_token_iff Token.whole_closeBracket ending
    simp [itemsTokens, skipItems?, close]
  | t :: ts => by
    have first := whole_tokens_iff t
    have more := whole_itemsTokens_iff ending ts
    simp [itemsTokens, skipItems?, or_imp, forall_and, first, more, Whole, and_assoc]

theorem whole_entriesTokens_iff (ending : Ending) : (es : List (Quoted × Tree)) →
    ((∀ k ∈ entriesTokens ending es, k.Whole) ↔ skipEntries? es = none ∧ ending.fault? = none)
  | [] => by
    have close := Ending.whole_token_iff Token.whole_closeBrace ending
    simp [entriesTokens, skipEntries?, close]
  | (key, t) :: es => by
    have first := whole_tokens_iff t
    have more := whole_entriesTokens_iff ending es
    simp [entriesTokens, skipEntries?, or_imp, forall_and, first, more, Whole, and_assoc]

end

/-- Only whole trees have texts. -/
theorem SpelledBy.whole {t : Tree} {text : String} (h : t.SpelledBy text) : t.Whole :=
  (whole_tokens_iff t).1 (Spells.whole h)

/-! ## Arranging the tokens of a whole tree -/

/-- The tokens of a tree begin with one that closes nothing. -/
theorem exists_tokens_eq_cons (t : Tree) :
    ∃ k ks, t.tokens = k :: ks ∧ k ≠ .closeBracket ∧ k ≠ .closeBrace := by
  cases t with
  | array items => cases items <;> exact ⟨_, _, rfl, nofun, nofun⟩
  | object entries => cases entries <;> exact ⟨_, _, rfl, nofun, nofun⟩
  | _ => exact ⟨_, _, rfl, nofun, nofun⟩

theorem want_openBracket (frames : List Frame) {k : Token} (ks : List Token)
    (h : k ≠ .closeBracket) :
    want frames (.openBracket :: k :: ks) = want (.items [] :: frames) (k :: ks) := by
  cases k <;> first | rfl | exact absurd rfl h

mutual

/-- Where a value must follow, the tokens of a whole tree complete that tree. -/
theorem want_tokens (frames : List Frame) (ks : List Token) : (t : Tree) → t.Whole →
    want frames (t.tokens ++ ks) = resume t frames ks
  | null, _ | bool _, _ | number _, _ | string _, _ => by
    simp only [tokens, List.cons_append, List.nil_append, want]
  | array [] ending, whole => by
    obtain ⟨-, rfl⟩ := whole_array_iff.1 whole
    simp only [tokens, Ending.token, List.cons_append, List.nil_append, want]
  | array (t :: ts) ending, whole => by
    obtain ⟨wholes, rfl⟩ := whole_array_iff.1 whole
    obtain ⟨first, more⟩ := List.forall_mem_cons.1 wholes
    obtain ⟨k, ks', tokens_eq, ne, -⟩ := exists_tokens_eq_cons t
    have value := want_tokens (.items [] :: frames) (itemsTokens .closed ts ++ ks) t first
    have items := resume_itemsTokens t [] frames ks ts more
    rw [tokens_eq, List.cons_append] at value
    rw [tokens, List.cons_append, List.append_assoc, tokens_eq, List.cons_append,
      want_openBracket frames _ ne, value, items]
    rfl
  | object [] ending, whole => by
    obtain ⟨-, rfl⟩ := whole_object_iff.1 whole
    simp only [tokens, Ending.token, List.cons_append, List.nil_append, want]
  | object ((key, t) :: es) ending, whole => by
    obtain ⟨wholes, rfl⟩ := whole_object_iff.1 whole
    obtain ⟨⟨-, first⟩, more⟩ := List.forall_mem_cons.1 wholes
    have value := want_tokens (.entry [] key :: frames) (entriesTokens .closed es ++ ks) t first
    have entries := resume_entriesTokens t [] key frames ks es fun e he => (more e he).2
    simp only [tokens, List.cons_append, List.append_assoc, want]
    rw [value, entries]
    rfl
  | broken _ _, whole => absurd whole (not_whole_broken _ _)
  | absent, whole => absurd whole not_whole_absent

/-- After a value the tokens of the other items complete the array. -/
theorem resume_itemsTokens (t : Tree) (before : List Tree) (frames : List Frame)
    (ks : List Token) : (ts : List Tree) → (∀ t ∈ ts, t.Whole) →
    resume t (.items before :: frames) (itemsTokens .closed ts ++ ks) =
      resume (.array (before.reverse ++ t :: ts) .closed) frames ks
  | [], _ => by
    simp only [itemsTokens, Ending.token, List.cons_append, List.nil_append, resume, Frame.close]
  | u :: ts, wholes => by
    obtain ⟨first, more⟩ := List.forall_mem_cons.1 wholes
    have value := want_tokens (.items (t :: before) :: frames) (itemsTokens .closed ts ++ ks) u
      first
    have items := resume_itemsTokens u (t :: before) frames ks ts more
    simp only [itemsTokens, List.cons_append, List.append_assoc, resume]
    rw [value, items, List.reverse_cons, List.append_assoc, List.singleton_append]

/-- After a value the tokens of the other entries complete the object. -/
theorem resume_entriesTokens (t : Tree) (before : List (Quoted × Tree)) (key : Quoted)
    (frames : List Frame) (ks : List Token) : (es : List (Quoted × Tree)) →
    (∀ e ∈ es, e.2.Whole) →
    resume t (.entry before key :: frames) (entriesTokens .closed es ++ ks) =
      resume (.object (before.reverse ++ (key, t) :: es) .closed) frames ks
  | [], _ => by
    simp only [entriesTokens, Ending.token, List.cons_append, List.nil_append, resume, Frame.close]
  | (name, u) :: es, wholes => by
    obtain ⟨first, more⟩ := List.forall_mem_cons.1 wholes
    have value := want_tokens (.entry ((key, t) :: before) name :: frames)
      (entriesTokens .closed es ++ ks) u first
    have entries := resume_entriesTokens u ((key, t) :: before) name frames ks es more
    simp only [entriesTokens, List.cons_append, List.append_assoc, resume]
    rw [value, entries, List.reverse_cons, List.append_assoc, List.singleton_append]

end

/-- The tokens of a whole tree have that tree, and none is left over. -/
theorem ofTokens_tokens {t : Tree} (whole : t.Whole) : ofTokens t.tokens = (t, []) := by
  have := want_tokens [] [] t whole
  rw [List.append_nil] at this
  rw [ofTokens, this, resume]

end Tree

/-! ## Nesting -/

/-- The number of open containers after a token. -/
def Token.depthAfter (depth : Nat) : Token → Nat
  | openBrace | openBracket => depth + 1
  | closeBrace | closeBracket => depth - 1
  | _ => depth

/-- The largest number of open containers while tokens are read, beginning with `depth`. -/
def Token.nesting (depth : Nat) : List Token → Nat
  | [] => depth
  | t :: ts => max depth (Token.nesting (t.depthAfter depth) ts)

/-- The largest number of arrays and objects of the text that lie in one another. -/
def textNesting (text : String) : Nat :=
  Token.nesting 0 (tokens text.toList)

namespace Tree

mutual

/-- The number of containers around the innermost part of a tree. -/
def nesting : Tree → Nat
  | null | bool _ | number _ | string _ | broken _ _ | absent => 0
  | array items _ => itemsNesting items + 1
  | object entries _ => entriesNesting entries + 1

def itemsNesting : List Tree → Nat
  | [] => 0
  | t :: ts => max t.nesting (itemsNesting ts)

def entriesNesting : List (Quoted × Tree) → Nat
  | [] => 0
  | (_, t) :: es => max t.nesting (entriesNesting es)

end

mutual

theorem nesting_tokens (depth : Nat) (ks : List Token) : (t : Tree) → t.Whole →
    Token.nesting depth (t.tokens ++ ks) = max (depth + t.nesting) (Token.nesting depth ks)
  | null, _ | bool _, _ | number _, _ | string _, _ => rfl
  | array [] _, whole => by
    obtain ⟨-, rfl⟩ := whole_array_iff.1 whole
    simp only [tokens, Ending.token, List.cons_append, List.nil_append, Token.nesting,
      Token.depthAfter, Nat.add_sub_cancel, nesting, itemsNesting]
    omega
  | array (t :: ts) _, whole => by
    obtain ⟨wholes, rfl⟩ := whole_array_iff.1 whole
    obtain ⟨first, more⟩ := List.forall_mem_cons.1 wholes
    have value := nesting_tokens (depth + 1) (itemsTokens .closed ts ++ ks) t first
    have items := nesting_itemsTokens depth ks ts more
    simp only [tokens, List.cons_append, List.append_assoc, Token.nesting, Token.depthAfter, value,
      items, nesting, itemsNesting]
    omega
  | object [] _, whole => by
    obtain ⟨-, rfl⟩ := whole_object_iff.1 whole
    simp only [tokens, Ending.token, List.cons_append, List.nil_append, Token.nesting,
      Token.depthAfter, Nat.add_sub_cancel, nesting, entriesNesting]
    omega
  | object ((_, t) :: es) _, whole => by
    obtain ⟨wholes, rfl⟩ := whole_object_iff.1 whole
    obtain ⟨⟨-, first⟩, more⟩ := List.forall_mem_cons.1 wholes
    have value := nesting_tokens (depth + 1) (entriesTokens .closed es ++ ks) t first
    have entries := nesting_entriesTokens depth ks es fun e he => (more e he).2
    simp only [tokens, List.cons_append, List.append_assoc, Token.nesting, Token.depthAfter, value,
      entries, nesting, entriesNesting]
    omega
  | broken _ _, whole => absurd whole (not_whole_broken _ _)
  | absent, whole => absurd whole not_whole_absent

theorem nesting_itemsTokens (depth : Nat) (ks : List Token) : (ts : List Tree) →
    (∀ t ∈ ts, t.Whole) →
    Token.nesting (depth + 1) (itemsTokens .closed ts ++ ks) =
      max (depth + 1 + itemsNesting ts) (Token.nesting depth ks)
  | [], _ => rfl
  | t :: ts, wholes => by
    obtain ⟨first, more⟩ := List.forall_mem_cons.1 wholes
    have value := nesting_tokens (depth + 1) (itemsTokens .closed ts ++ ks) t first
    have items := nesting_itemsTokens depth ks ts more
    simp only [itemsTokens, List.cons_append, List.append_assoc, Token.nesting, Token.depthAfter,
      value, items, itemsNesting]
    omega

theorem nesting_entriesTokens (depth : Nat) (ks : List Token) : (es : List (Quoted × Tree)) →
    (∀ e ∈ es, e.2.Whole) →
    Token.nesting (depth + 1) (entriesTokens .closed es ++ ks) =
      max (depth + 1 + entriesNesting es) (Token.nesting depth ks)
  | [], _ => rfl
  | (_, t) :: es, wholes => by
    obtain ⟨first, more⟩ := List.forall_mem_cons.1 wholes
    have value := nesting_tokens (depth + 1) (entriesTokens .closed es ++ ks) t first
    have entries := nesting_entriesTokens depth ks es more
    simp only [entriesTokens, List.cons_append, List.append_assoc, Token.nesting, Token.depthAfter,
      value, entries, entriesNesting]
    omega

end

/-- A text nests as deep as the tree that it spells. -/
theorem SpelledBy.textNesting_eq {t : Tree} {text : String} (h : t.SpelledBy text) :
    textNesting text = t.nesting := by
  have := nesting_tokens 0 [] t h.whole
  rw [List.append_nil] at this
  rw [textNesting, Spells.tokens_eq h, this]
  simp [Token.nesting]

end Tree

/-! ## Reading a text -/

namespace Reader

open HierarchyAccessors.Json.Tree (ofTokens_tokens)

/-- A text that spells a tree is read as that tree. -/
theorem document_of_spelled {value : Reader α} {t : Tree} {text : String}
    (spelled : t.SpelledBy text) : document value text = value maxDepth t := by
  rw [document, Spells.tokens_eq spelled, ofTokens_tokens spelled.whole]
  cases h : value maxDepth t <;> simp [h, bind, Except.bind, pure, Except.pure]

end Reader

end HierarchyAccessors.Json
