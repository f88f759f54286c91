import HierarchyAccessors.Json.Numeral
import HierarchyAccessors.Json.Quoted

/-!
# Tokens

A text is cut into tokens without regard to where they stand, and cutting ends at the first place
that begins no token. That place is a token too (`broken`), because it is a fault only for a
reader who gets there.
-/

namespace HierarchyAccessors.Json

inductive Token
  | openBrace
  | closeBrace
  | openBracket
  | closeBracket
  | comma
  | colon
  | null
  | bool (b : Bool)
  | number (n : Numeral)
  | string (q : Quoted)
  /-- What cannot be cut further: the fault when a value is read here, and the fault when a value
  is passed over here. -/
  | broken (read skipped : Fault)
deriving DecidableEq

namespace Token

/-- White space between tokens. -/
def isSpace (c : Char) : Bool :=
  c == ' ' || c == '\n' || c == '\t' || c == '\r'

/-- The rest of a word whose first letter has been seen: `token` if it is all there. -/
def word (token : Token) : List Char → List Char → Token × List Char
  | [], cs => (token, cs)
  | _ :: _, [] => (broken .ended .ended, [])
  | w :: ws, c :: cs => if c = w then word token ws cs else (broken .malformed .malformed, [])

/-- The number at the start of the text. -/
def ofNumeral (cs : List Char) : Token × List Char :=
  match Numeral.scan cs with
  | .ok (n, rest) => (number n, rest)
  | .error fault => (broken fault.read fault.skipped, [])

/-- The token that begins with `c`, which is not white space, and the text after the token. -/
def scan (c : Char) (cs : List Char) : Token × List Char :=
  match c with
  | '\x7b' => (openBrace, cs)
  | '\x7d' => (closeBrace, cs)
  | '[' => (openBracket, cs)
  | ']' => (closeBracket, cs)
  | ',' => (comma, cs)
  | ':' => (colon, cs)
  | 'n' => word null ['u', 'l', 'l'] cs
  | 't' => word (bool true) ['r', 'u', 'e'] cs
  | 'f' => word (bool false) ['a', 'l', 's', 'e'] cs
  | '"' => let (q, rest) := Quoted.scan cs; (string q, rest)
  | c =>
    if c = '-' ∨ c.isDigit then ofNumeral (c :: cs) else (broken .malformed .malformed, [])

/-! ## Every token takes text away -/

theorem length_word (token : Token) (ws cs : List Char) :
    (word token ws cs).2.length ≤ cs.length := by
  fun_induction word token ws cs with
  | case1 => simp
  | case2 => simp
  | case3 w ws cs ih => exact Nat.le_succ_of_le ih
  | case4 => simp

theorem length_scan (c : Char) (cs : List Char) : (scan c cs).2.length ≤ cs.length := by
  unfold scan
  split <;> try simp
  · exact length_word _ _ _
  · exact length_word _ _ _
  · exact length_word _ _ _
  · exact Quoted.length_scan cs
  · split
    · unfold ofNumeral
      split
      · next h => exact Nat.le_of_lt_succ (Numeral.length_of_scan h)
      · simp
    · simp

end Token

/-- The tokens of a text. -/
def tokens : List Char → List Token
  | [] => []
  | c :: cs =>
    if Token.isSpace c then tokens cs
    else (Token.scan c cs).1 :: tokens (Token.scan c cs).2
termination_by cs => cs.length
decreasing_by
  · simp
  · exact Nat.lt_succ_of_le (Token.length_scan c cs)

end HierarchyAccessors.Json
