import HierarchyAccessors.Proofs.Json.WholeTree

/-!
# What an accepted text is made of

Tokens that are arranged into a whole tree are the tokens of that tree
(`Tree.tokens_of_ofTokens`): wherever the machine stops before the end, what it stops at is not
whole. A reader that accepts whole trees only therefore accepts nothing but texts of the grammar: an
accepted text spells a tree which the reader accepts (`exists_spelled_of_document`).

A literal that the end of the text cuts off is not whole, but a reader that looks at the characters
of a literal alone cannot see it. What it can rely on is that no quote stands in such a literal
(`Tree.Honest`).
-/

namespace HierarchyAccessors.Json

namespace Tree

/-! ## Tokens that are arranged into a whole tree -/

theorem not_whole_close {v : Tree} {ending : Ending} (h : ¬v.Whole ∨ ending ≠ .closed)
    (frame : Frame) : ¬(frame.close v ending).Whole := by
  cases frame with
  | items before =>
    intro whole
    obtain ⟨wholes, closed⟩ := whole_array_iff.1 whole
    exact h.elim (· (wholes v (by simp))) (· closed)
  | entry before key =>
    intro whole
    obtain ⟨wholes, closed⟩ := whole_object_iff.1 whole
    exact h.elim (· (wholes (key, v) (by simp)).2) (· closed)

theorem not_whole_plug {t : Tree} (h : ¬t.Whole) (frames : List Frame) :
    ¬(Frame.plug t frames).Whole := by
  induction frames generalizing t with
  | nil => exact h
  | cons frame frames ih => exact ih (not_whole_close (.inr (by simp)) frame)

/-- Where reading stops at something that is not whole, so is the tree. -/
theorem not_whole_halt {t v : Tree} {frames : List Frame} {ks : List Token}
    (stops : halt v frames = (t, ks)) (h : ¬v.Whole) : ¬t.Whole := by
  cases stops
  exact not_whole_plug h frames

end Tree

namespace Frame

/-- The tokens of an open container so far. -/
def tokens : Frame → List Token
  | items before => .openBracket :: before.reverse.flatMap fun t => t.tokens ++ [.comma]
  | entry before key =>
    .openBrace ::
        before.reverse.flatMap (fun e => .string e.1 :: .colon :: (e.2.tokens ++ [.comma])) ++
      [.string key, .colon]

/-- The tokens of all open containers so far. -/
def opened (frames : List Frame) : List Token :=
  frames.reverse.flatMap tokens

theorem opened_cons (frame : Frame) (frames : List Frame) :
    opened (frame :: frames) = opened frames ++ frame.tokens := by
  simp [opened]

end Frame

namespace Tree

open HierarchyAccessors.Json.Frame (opened opened_cons)

theorem append_itemsTokens (t : Tree) (ts : List Tree) (ending : Ending) (u : Tree) :
    t.tokens ++ itemsTokens ending (ts ++ [u]) =
      (t :: ts).flatMap (fun t => t.tokens ++ [.comma]) ++
        (u.tokens ++ [ending.token .closeBracket]) := by
  induction ts generalizing t with
  | nil => simp [itemsTokens]
  | cons t' ts ih =>
    rw [List.cons_append, itemsTokens, ih, List.flatMap_cons]
    simp

theorem tokens_close_items (before : List Tree) (v : Tree) (ending : Ending) :
    (Frame.close v ending (.items before)).tokens =
      (Frame.items before).tokens ++ (v.tokens ++ [ending.token .closeBracket]) := by
  rw [Frame.close, Frame.tokens]
  cases before.reverse with
  | nil => simp [tokens, itemsTokens]
  | cons t ts => rw [List.cons_append, tokens, append_itemsTokens, List.cons_append]

theorem append_entriesTokens (key : Quoted) (t : Tree) (es : List (Quoted × Tree)) (ending : Ending)
    (name : Quoted) (u : Tree) :
    .string key :: .colon :: (t.tokens ++ entriesTokens ending (es ++ [(name, u)])) =
      ((key, t) :: es).flatMap (fun e => .string e.1 :: .colon :: (e.2.tokens ++ [.comma])) ++
        (.string name :: .colon :: (u.tokens ++ [ending.token .closeBrace])) := by
  induction es generalizing key t with
  | nil => simp [entriesTokens]
  | cons e es ih =>
    rw [List.cons_append, entriesTokens, ih, List.flatMap_cons]
    simp

theorem tokens_close_entry (before : List (Quoted × Tree)) (key : Quoted) (v : Tree)
    (ending : Ending) :
    (Frame.close v ending (.entry before key)).tokens =
      (Frame.entry before key).tokens ++ (v.tokens ++ [ending.token .closeBrace]) := by
  rw [Frame.close, Frame.tokens]
  cases before.reverse with
  | nil => simp [tokens, entriesTokens]
  | cons e es =>
    rw [List.cons_append, tokens, append_entriesTokens]
    simp

/-- Where a value must follow and a whole tree comes of it, no token is lost. -/
def Wanted (frames : List Frame) (ks : List Token) : Prop :=
  ∀ t rest, want frames ks = (t, rest) → t.Whole → t.tokens ++ rest = opened frames ++ ks

/-- After a value, if a whole tree comes of it, no token is lost. -/
def Resumed (v : Tree) (frames : List Frame) (ks : List Token) : Prop :=
  ∀ t rest, resume v frames ks = (t, rest) → t.Whole →
    t.tokens ++ rest = opened frames ++ (v.tokens ++ ks)

/-- By induction on the run of the machine: where it stops, what it stops at is not whole, and
everywhere else the next token is put where it belongs. -/
theorem wanted_and_resumed :
    (∀ frames ks, Wanted frames ks) ∧ ∀ v frames ks, Resumed v frames ks := by
  apply want.mutual_induct <;> intros <;> intro t rest h whole <;> simp only [want, resume] at h
  case case17 =>
    cases h
    rfl
  any_goals
    refine absurd whole (not_whole_halt h ?_)
    simp [not_whole_close, misplaced, whole_array_iff, whole_object_iff, not_whole_absent,
      not_whole_broken]
  all_goals
    rename_i step
    have kept := step t rest h whole
    simpa [opened_cons, Frame.tokens, tokens_close_items, tokens_close_entry, tokens,
      Ending.token] using kept

/-- Tokens that are arranged into a whole tree are the tokens of that tree, up to those that are
left over. -/
theorem tokens_of_ofTokens {ks rest : List Token} {t : Tree} (h : ofTokens ks = (t, rest))
    (whole : t.Whole) : t.tokens ++ rest = ks :=
  wanted_and_resumed.1 [] ks t rest h whole

end Tree

/-! ## String literals -/

/-- A literal that is cut off by the end of the text has no quote in it. -/
def Quoted.Honest : Quoted → Prop
  | closed _ => True
  | unclosed raw => splitAtQuote raw = none

/-- The string literal of a token. -/
def Token.literals : Token → List Quoted
  | string q => [q]
  | _ => []

theorem Quoted.honest_scan (cs : List Char) : (Quoted.scan cs).1.Honest := by
  rw [scan]
  split
  · trivial
  · next cut => exact cut

theorem Token.literals_ofNumeral (cs : List Char) : (ofNumeral cs).1.literals = [] := by
  rw [ofNumeral]
  split <;> rfl

theorem Token.literals_word {token : Token} (h : token.literals = []) (ws cs : List Char) :
    (word token ws cs).1.literals = [] := by
  fun_induction word token ws cs with
  | case1 => exact h
  | case2 => rfl
  | case3 _ _ _ ih => exact ih
  | case4 => rfl

theorem Token.honest_scan (c : Char) (cs : List Char) :
    ∀ q ∈ (scan c cs).1.literals, q.Honest := by
  unfold scan
  split
  case h_7 | h_8 | h_9 =>
    rw [literals_word rfl]
    simp
  case h_10 =>
    intro q hq
    cases List.mem_singleton.1 hq
    exact Quoted.honest_scan cs
  case h_11 =>
    split
    · simp [literals_ofNumeral]
    · simp [literals]
  all_goals simp [literals]

theorem honest_tokens (cs : List Char) : ∀ k ∈ tokens cs, ∀ q ∈ k.literals, q.Honest := by
  fun_induction tokens cs with
  | case1 => simp
  | case2 _ _ _ ih => exact ih
  | case3 c cs _ ih => exact List.forall_mem_cons.2 ⟨Token.honest_scan c cs, ih⟩

namespace Tree

mutual

/-- The string literals of a tree, keys included. -/
def literals : Tree → List Quoted
  | string q => [q]
  | array items _ => itemsLiterals items
  | object entries _ => entriesLiterals entries
  | null | bool _ | number _ | broken _ _ | absent => []

def itemsLiterals : List Tree → List Quoted
  | [] => []
  | t :: ts => t.literals ++ itemsLiterals ts

def entriesLiterals : List (Quoted × Tree) → List Quoted
  | [] => []
  | (key, t) :: es => key :: (t.literals ++ entriesLiterals es)

end

theorem itemsLiterals_eq_flatMap (ts : List Tree) : itemsLiterals ts = ts.flatMap literals := by
  induction ts with
  | nil => rfl
  | cons t ts ih => rw [itemsLiterals, ih, List.flatMap_cons]

theorem entriesLiterals_eq_flatMap (es : List (Quoted × Tree)) :
    entriesLiterals es = es.flatMap fun e => e.1 :: e.2.literals := by
  induction es with
  | nil => rfl
  | cons e es ih => rw [entriesLiterals, ih, List.flatMap_cons, List.cons_append]

end Tree

/-- The string literals of a container that is still open. -/
def Frame.literals : Frame → List Quoted
  | items before => before.flatMap Tree.literals
  | entry before key => key :: before.flatMap fun e => e.1 :: e.2.literals

namespace Tree

theorem mem_literals_close {q : Quoted} {v : Tree} {ending : Ending} {frame : Frame} :
    q ∈ (frame.close v ending).literals ↔ q ∈ v.literals ∨ q ∈ frame.literals := by
  cases frame <;>
    simp [Frame.close, Frame.literals, literals, itemsLiterals_eq_flatMap,
      entriesLiterals_eq_flatMap] <;>
    grind

theorem mem_literals_plug {q : Quoted} {v : Tree} {frames : List Frame} :
    q ∈ (Frame.plug v frames).literals ↔ q ∈ v.literals ∨ q ∈ frames.flatMap Frame.literals := by
  induction frames generalizing v with
  | nil => simp [Frame.plug]
  | cons frame frames ih => simp [Frame.plug, ih, mem_literals_close, or_assoc]

theorem mem_literals_halt {q : Quoted} {v : Tree} {frames : List Frame} :
    q ∈ (halt v frames).1.literals ↔ q ∈ v.literals ∨ q ∈ frames.flatMap Frame.literals :=
  mem_literals_plug

/-- Every literal of the tree comes from the tokens, or has been read before. -/
theorem mem_literals_of_run (q : Quoted) :
    (∀ frames ks, q ∈ (want frames ks).1.literals →
      q ∈ frames.flatMap Frame.literals ∨ q ∈ ks.flatMap Token.literals) ∧
    ∀ v frames ks, q ∈ (resume v frames ks).1.literals →
      q ∈ v.literals ∨ q ∈ frames.flatMap Frame.literals ∨ q ∈ ks.flatMap Token.literals := by
  apply want.mutual_induct <;> intros <;> rename_i h <;> simp only [want, resume] at h
  any_goals
    simp [mem_literals_halt, mem_literals_close, literals, itemsLiterals, entriesLiterals,
      misplaced, Frame.literals, Token.literals] at h ⊢
    grind
  all_goals
    rename_i step
    have := step h
    simp [mem_literals_close, literals, itemsLiterals, entriesLiterals, Frame.literals,
      Token.literals] at this ⊢
    grind

/-- Every literal of the tree is one that can be cut out of a text. -/
def Honest (t : Tree) : Prop :=
  ∀ q ∈ t.literals, q.Honest

theorem honest_ofTokens (cs : List Char) : (ofTokens (Json.tokens cs)).1.Honest := by
  intro q hq
  have found := (mem_literals_of_run q).1 [] _ hq
  simp only [List.flatMap_nil, List.not_mem_nil, false_or, List.mem_flatMap] at found
  obtain ⟨k, hk, mem⟩ := found
  exact honest_tokens cs k hk q mem

end Tree

/-! ## Reading a text -/

namespace Reader

open HierarchyAccessors.Json.Tree (SpelledBy tokens_of_ofTokens whole_tokens_iff)

/-- What a reader of whole trees accepts is the text of a tree which it accepts. -/
theorem exists_spelled_of_document {value : Reader α} {text : String} {a : α}
    (wholes : ∀ t : Tree, t.Honest → value maxDepth t = .ok a → t.Whole)
    (accepted : document value text = .ok a) :
    ∃ t : Tree, t.SpelledBy text ∧ value maxDepth t = .ok a := by
  have honest := Tree.honest_ofTokens text.toList
  rw [document] at accepted
  generalize arranged : Tree.ofTokens (tokens text.toList) = pair at accepted honest
  obtain ⟨t, rest⟩ := pair
  obtain ⟨b, read, accepted⟩ := bind_eq_ok_iff.1 accepted
  cases rest with
  | cons k rest => cases accepted
  | nil =>
    cases accepted
    have whole := wholes t honest read
    have same := tokens_of_ofTokens arranged whole
    rw [List.append_nil] at same
    refine ⟨t, ?_, read⟩
    rw [SpelledBy, same]
    refine spells_tokens ?_
    rw [← same]
    exact (whole_tokens_iff t).2 whole

end Reader

end HierarchyAccessors.Json
