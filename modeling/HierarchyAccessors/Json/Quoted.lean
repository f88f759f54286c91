import HierarchyAccessors.Json.Fault
import HierarchyAccessors.Text.Hexadecimal

/-!
# String literals

A string literal is first cut out of the text as it stands between its quotes (`Quoted`), and its
characters are read only when they are wanted: a value that is passed over may hold a surrogate
escape without its partner, a value that is read may not. A written literal is cut out of a text
at its own quotes (`scan_encodeRaw_append`), and reading undoes writing (`decode_closed_encode`).
-/

namespace HierarchyAccessors.Json

open Text (hexDigit? hexDigit?_digitChar)

/-- The text after an opening quote: up to the closing quote, or, where there is none, up to the
end of the whole text. -/
inductive Quoted
  | closed (raw : List Char)
  | unclosed (raw : List Char)
deriving DecidableEq

/-! ## Cutting out -/

/-- Whether fewer bytes follow than an escape by code unit needs. -/
def tooShort (cs : List Char) : Bool :=
  (cs.take 4).foldr (·.utf8Size + ·) 0 < 4

/-- The text before the closing quote and the text after it. An escape by code unit that reaches
past the end of the text takes the quote with it. -/
def splitAtQuote : List Char → Option (List Char × List Char)
  | [] => none
  | '"' :: cs => some ([], cs)
  | '\\' :: 'u' :: cs =>
    if tooShort cs then none
    else (splitAtQuote cs).map fun (raw, rest) => ('\\' :: 'u' :: raw, rest)
  | '\\' :: c :: cs => (splitAtQuote cs).map fun (raw, rest) => ('\\' :: c :: raw, rest)
  | c :: cs => (splitAtQuote cs).map fun (raw, rest) => (c :: raw, rest)

theorem length_of_splitAtQuote {cs raw rest : List Char} (h : splitAtQuote cs = some (raw, rest)) :
    rest.length ≤ cs.length := by
  fun_induction splitAtQuote cs generalizing raw with
  | case1 => simp at h
  | case2 => simp_all
  | case3 => simp at h
  | case4 cs _ ih =>
    obtain ⟨⟨raw, rest'⟩, hp, heq⟩ := Option.map_eq_some_iff.1 h
    obtain ⟨-, rfl⟩ := Prod.mk.inj heq
    exact Nat.le_add_right_of_le (Nat.le_add_right_of_le (ih hp))
  | case5 c cs _ ih =>
    obtain ⟨⟨raw, rest'⟩, hp, heq⟩ := Option.map_eq_some_iff.1 h
    obtain ⟨-, rfl⟩ := Prod.mk.inj heq
    exact Nat.le_add_right_of_le (Nat.le_add_right_of_le (ih hp))
  | case6 c cs _ _ _ ih =>
    obtain ⟨⟨raw, rest'⟩, hp, heq⟩ := Option.map_eq_some_iff.1 h
    obtain ⟨-, rfl⟩ := Prod.mk.inj heq
    exact Nat.le_add_right_of_le (ih hp)

namespace Quoted

/-- The literal after an opening quote, and the text after the literal. -/
def scan (cs : List Char) : Quoted × List Char :=
  match splitAtQuote cs with
  | some (raw, rest) => (.closed raw, rest)
  | none => (.unclosed cs, [])

theorem length_scan (cs : List Char) : (scan cs).2.length ≤ cs.length := by
  unfold scan
  split
  · next h => exact length_of_splitAtQuote h
  · simp

/-! ## Reading -/

/-- What a literal spells out: characters, and UTF-16 code units given by number. -/
inductive Piece
  | char (c : Char)
  | unit (n : Nat)
deriving DecidableEq

/-- The value of four hexadecimal digits. -/
def hexUnit? (a b c d : Char) : Option Nat := do
  let a ← hexDigit? a
  let b ← hexDigit? b
  let c ← hexDigit? c
  let d ← hexDigit? d
  return ((a * 16 + b) * 16 + c) * 16 + d

/-- The character that a backslash and one more character stand for. -/
def escaped? : Char → Option Char
  | '"' => some '"'
  | '\\' => some '\\'
  | '/' => some '/'
  | 'b' => some '\x08'
  | 'f' => some '\x0c'
  | 'n' => some '\n'
  | 'r' => some '\r'
  | 't' => some '\t'
  | _ => none

/-- The pieces up to the first fault, and that fault; `stop` is the fault at the end of the text,
and `short` the fault of an escape by code unit that the end cuts. -/
def piecesOf (stop short : Option Fault) : List Char → List Piece × Option Fault
  | [] => ([], stop)
  | ['\\'] => ([], short)
  | '\\' :: 'u' :: a :: b :: c :: d :: cs =>
    match hexUnit? a b c d with
    | some n => let (ps, fault) := piecesOf stop short cs; (.unit n :: ps, fault)
    | none => ([], some .malformed)
  | '\\' :: 'u' :: cs => ([], if tooShort cs then short else some .malformed)
  | '\\' :: e :: cs =>
    match escaped? e with
    | some c => let (ps, fault) := piecesOf stop short cs; (.char c :: ps, fault)
    | none => ([], some .malformed)
  | c :: cs =>
    if c.toNat < 0x20 then ([], some .malformed)
    else let (ps, fault) := piecesOf stop short cs; (.char c :: ps, fault)

/-- The pieces of a literal, and the fault that ends them. -/
def pieces : Quoted → List Piece × Option Fault
  | closed raw => piecesOf none (some .malformed) raw
  | unclosed raw => piecesOf (some .ended) (some .ended) raw

def isHighSurrogate (n : Nat) : Bool :=
  0xD800 ≤ n && n ≤ 0xDBFF

def isLowSurrogate (n : Nat) : Bool :=
  0xDC00 ≤ n && n ≤ 0xDFFF

/-- The characters that the pieces spell, a surrogate pair giving one character. -/
def join : List Piece → Option Fault → Except Fault (List Char)
  | [], none => .ok []
  | [], some fault => .error fault
  | .char c :: ps, fault => (join ps fault).map (c :: ·)
  | .unit high :: .unit low :: ps, fault =>
    if isHighSurrogate high && isLowSurrogate low then
      (join ps fault).map
        (Char.ofNat (0x10000 + (high - 0xD800) * 0x400 + (low - 0xDC00)) :: ·)
    else if isHighSurrogate high || isLowSurrogate high then .error .malformed
    else (join (.unit low :: ps) fault).map (Char.ofNat high :: ·)
  | .unit n :: ps, fault =>
    if isHighSurrogate n && ps.isEmpty then .error (fault.getD .malformed)
    else if isHighSurrogate n || isLowSurrogate n then .error .malformed
    else (join ps fault).map (Char.ofNat n :: ·)

/-- The characters of a literal that is read. -/
def decode (q : Quoted) : Except Fault String :=
  (join q.pieces.1 q.pieces.2).map String.ofList

/-- The fault of a literal that is passed over. -/
def skipFault? (q : Quoted) : Option Fault :=
  q.pieces.2

end Quoted

/-! ## Writing -/

/-- A character inside a written literal: quote, backslash and control characters are escaped. -/
def encodeChar (c : Char) : List Char :=
  if c = '"' then ['\\', '"']
  else if c = '\\' then ['\\', '\\']
  else if c = '\x08' then ['\\', 'b']
  else if c = '\t' then ['\\', 't']
  else if c = '\n' then ['\\', 'n']
  else if c = '\x0c' then ['\\', 'f']
  else if c = '\r' then ['\\', 'r']
  else if c.toNat < 0x20 then
    ['\\', 'u', '0', '0', Nat.digitChar (c.toNat / 16), Nat.digitChar (c.toNat % 16)]
  else [c]

/-- The inside of the literal of a text. -/
def encodeRaw (s : List Char) : List Char :=
  s.flatMap encodeChar

/-- The literal of a text. -/
def encodeString (s : String) : List Char :=
  '"' :: encodeRaw s.toList ++ ['"']

/-! ## Reading what is written -/

namespace Quoted

theorem piecesOf_encodeChar (stop short : Option Fault) (c : Char) (cs : List Char) :
    ∃ p, piecesOf stop short (encodeChar c ++ cs) =
        (p :: (piecesOf stop short cs).1, (piecesOf stop short cs).2) ∧
      (p = .char c ∨ p = .unit c.toNat ∧ c.toNat < 0x20) := by
  unfold encodeChar
  split
  · subst c; exact ⟨.char '"', rfl, .inl rfl⟩
  split
  · subst c; exact ⟨.char '\\', rfl, .inl rfl⟩
  split
  · subst c; exact ⟨.char '\x08', rfl, .inl rfl⟩
  split
  · subst c; exact ⟨.char '\t', rfl, .inl rfl⟩
  split
  · subst c; exact ⟨.char '\n', rfl, .inl rfl⟩
  split
  · subst c; exact ⟨.char '\x0c', rfl, .inl rfl⟩
  split
  · subst c; exact ⟨.char '\r', rfl, .inl rfl⟩
  split
  · next h =>
    refine ⟨.unit c.toNat, ?_, .inr ⟨rfl, h⟩⟩
    have hi := hexDigit?_digitChar (n := c.toNat / 16) (by omega)
    have lo := hexDigit?_digitChar (n := c.toNat % 16) (by omega)
    have zero : hexDigit? '0' = some 0 := by decide
    have e : hexUnit? '0' '0' (c.toNat / 16).digitChar (c.toNat % 16).digitChar = some c.toNat := by
      simp [hexUnit?, hi, lo, zero]; omega
    simp [piecesOf, e]
  · next hq hb _ _ _ _ _ h =>
    refine ⟨.char c, ?_, .inl rfl⟩
    rw [List.singleton_append, piecesOf.eq_def]
    split <;> simp_all

theorem join_written {p : Piece} {c : Char} (h : p = .char c ∨ p = .unit c.toNat ∧ c.toNat < 0x20)
    (ps : List Piece) (fault : Option Fault) :
    join (p :: ps) fault = (join ps fault).map (c :: ·) := by
  rcases h with rfl | ⟨rfl, h⟩
  · simp [join]
  · have hh : isHighSurrogate c.toNat = false := by simp [isHighSurrogate]; omega
    have hl : isLowSurrogate c.toNat = false := by simp [isLowSurrogate]; omega
    cases ps with
    | nil => simp [join, hh, hl]
    | cons q qs => cases q <;> simp [join, hh, hl]

theorem join_piecesOf_encodeRaw (s : List Char) (stop short : Option Fault) :
    join (piecesOf stop short (encodeRaw s)).1 (piecesOf stop short (encodeRaw s)).2 =
      match stop with
      | none => .ok s
      | some fault => .error fault := by
  induction s with
  | nil => cases stop <;> simp [encodeRaw, piecesOf, join]
  | cons c s ih =>
    obtain ⟨p, hp, hc⟩ := piecesOf_encodeChar stop short c (encodeRaw s)
    have : encodeRaw (c :: s) = encodeChar c ++ encodeRaw s := by simp [encodeRaw]
    rw [this, hp, join_written hc, ih]
    cases stop <;> rfl

/-- Reading undoes writing. -/
theorem decode_closed_encode (s : String) : (closed (encodeRaw s.toList)).decode = .ok s := by
  simp [decode, pieces, join_piecesOf_encodeRaw, Except.map]

theorem splitAtQuote_encodeChar_append (c : Char) (cs : List Char) :
    splitAtQuote (encodeChar c ++ cs) =
      (splitAtQuote cs).map fun (raw, rest) => (encodeChar c ++ raw, rest) := by
  unfold encodeChar
  split
  · simp [splitAtQuote]
  split
  · simp [splitAtQuote]
  split
  · simp [splitAtQuote]
  split
  · simp [splitAtQuote]
  split
  · simp [splitAtQuote]
  split
  · simp [splitAtQuote]
  split
  · simp [splitAtQuote]
  split
  · next h =>
    have digit : ∀ n < 16, n.digitChar ≠ '"' ∧ n.digitChar ≠ '\\' := by decide
    have hi := digit (c.toNat / 16) (by omega)
    have lo := digit (c.toNat % 16) (by omega)
    have long : tooShort
        ('0' :: '0' :: (c.toNat / 16).digitChar :: (c.toNat % 16).digitChar :: cs) = false := by
      have := Char.utf8Size_pos (c.toNat / 16).digitChar
      have := Char.utf8Size_pos (c.toNat % 16).digitChar
      have : '0'.utf8Size = 1 := by decide
      exact decide_eq_false (by simp; omega)
    simp [splitAtQuote, long, Function.comp_def]
  · simp_all [splitAtQuote]

/-- A written literal is cut out of the text at its own quotes. -/
theorem scan_encodeRaw_append (s rest : List Char) :
    scan (encodeRaw s ++ '"' :: rest) = (closed (encodeRaw s), rest) := by
  have : splitAtQuote (encodeRaw s ++ '"' :: rest) = some (encodeRaw s, rest) := by
    induction s with
    | nil => simp [encodeRaw, splitAtQuote]
    | cons c s ih =>
      have h : encodeRaw (c :: s) = encodeChar c ++ encodeRaw s := by simp [encodeRaw]
      simp [h, splitAtQuote_encodeChar_append, ih]
  simp [scan, this]

end Quoted

end HierarchyAccessors.Json
