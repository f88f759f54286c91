import HierarchyAccessors.Text.Hexadecimal

/-!
# Strings of a configuration file

The four ways to write a string: with escapes or literally, on one line or over several. Each
reader gives the characters of the string and the text after its closing quotes, and none where
the string is not well formed.
-/

namespace HierarchyAccessors.Toml

open Text (hexDigit?)

/-- Blanks within a line. -/
def isBlank (c : Char) : Bool :=
  c == ' ' || c == '\t'

/-- Characters that may stand in a comment or in a string on one line: all but controls, with the
tab allowed. -/
def isPlain (c : Char) : Bool :=
  c == '\t' || (0x20 ≤ c.toNat && c != '\x7f')

/-- A line feed, with or without a carriage return before it. -/
def newline? : List Char → Option (List Char)
  | '\n' :: cs => some cs
  | '\r' :: '\n' :: cs => some cs
  | _ => none

/-! ## Escapes -/

/-- The character whose code point the digits give. -/
def scalar? (digits : List Char) : Option Char := do
  let code ← digits.foldlM (fun n c => (hexDigit? c).map (n * 16 + ·)) 0
  if code.isValidChar then some (Char.ofNat code) else none

/-- The escape after a backslash. -/
def escape? : List Char → Option (Char × List Char)
  | 'b' :: cs => some ('\x08', cs)
  | 't' :: cs => some ('\t', cs)
  | 'n' :: cs => some ('\n', cs)
  | 'f' :: cs => some ('\x0c', cs)
  | 'r' :: cs => some ('\r', cs)
  | '"' :: cs => some ('"', cs)
  | '\\' :: cs => some ('\\', cs)
  | 'u' :: cs =>
    if cs.length < 4 then none else (scalar? (cs.take 4)).map (·, cs.drop 4)
  | 'U' :: cs =>
    if cs.length < 8 then none else (scalar? (cs.take 8)).map (·, cs.drop 8)
  | _ => none

/-- The text after a line end that a backslash takes out, with all blanks and line ends after it. -/
def skippedBreak? (cs : List Char) : Option (List Char) :=
  (newline? (cs.dropWhile isBlank)).map skipBreaks
where
  skipBreaks : List Char → List Char
    | [] => []
    | '\r' :: '\n' :: cs => skipBreaks cs
    | c :: cs => if isBlank c || c == '\n' then skipBreaks cs else c :: cs

/-! ## Strings on one line -/

/-- The rest of a string with escapes; `fuel` is at least the length of the text. -/
def basicFrom (fuel : Nat) (cs : List Char) : Option (List Char × List Char) :=
  match fuel, cs with
  | 0, _ => none
  | _, [] => none
  | _, '"' :: cs => some ([], cs)
  | fuel + 1, '\\' :: cs => do
    let (c, cs) ← escape? cs
    let (s, rest) ← basicFrom fuel cs
    return (c :: s, rest)
  | fuel + 1, c :: cs =>
    if isPlain c then (basicFrom fuel cs).map fun (s, rest) => (c :: s, rest) else none

/-- The rest of a literal string. -/
def literalFrom : List Char → Option (List Char × List Char)
  | [] => none
  | '\'' :: cs => some ([], cs)
  | c :: cs => if isPlain c then (literalFrom cs).map fun (s, rest) => (c :: s, rest) else none

/-! ## Strings over several lines -/

/-- The closing quotes of a string over several lines, with up to two quotes of the string itself
before them. -/
def closing? (quote : Char) (cs : List Char) : Option (List Char × List Char) :=
  let count := (cs.takeWhile (· == quote)).length
  if count < 3 then none
  else
    let inside := min 2 (count - 3)
    some (List.replicate inside quote, cs.drop (inside + 3))

/-- The rest of a string over several lines; `escapes` says whether a backslash begins an escape,
and `fuel` is at least the length of the text. -/
def multilineFrom (quote : Char) (escapes : Bool) (fuel : Nat) (cs : List Char) :
    Option (List Char × List Char) :=
  match fuel with
  | 0 => none
  | fuel + 1 =>
    match closing? quote cs with
    | some (s, rest) => some (s, rest)
    | none =>
      match newline? cs with
      | some cs => (multilineFrom quote escapes fuel cs).map fun (s, rest) => ('\n' :: s, rest)
      | none =>
        match cs with
        | [] => none
        | c :: cs =>
          if escapes && c == '\\' then
            match skippedBreak? cs with
            | some cs => multilineFrom quote escapes fuel cs
            | none => do
              let (c, cs) ← escape? cs
              let (s, rest) ← multilineFrom quote escapes fuel cs
              return (c :: s, rest)
          else if isPlain c then
            (multilineFrom quote escapes fuel cs).map fun (s, rest) => (c :: s, rest)
          else none

/-- A string over several lines, after its opening quotes; a line end right there is dropped. -/
def multiline (quote : Char) (escapes : Bool) (cs : List Char) : Option (List Char × List Char) :=
  multilineFrom quote escapes (cs.length + 1) ((newline? cs).getD cs)

/-- A string of any form. -/
def string? : List Char → Option (String × List Char)
  | '"' :: '"' :: '"' :: cs => (multiline '"' true cs).map fun (s, rest) => (String.ofList s, rest)
  | '\'' :: '\'' :: '\'' :: cs =>
    (multiline '\'' false cs).map fun (s, rest) => (String.ofList s, rest)
  | '"' :: cs => (basicFrom (cs.length + 1) cs).map fun (s, rest) => (String.ofList s, rest)
  | '\'' :: cs => (literalFrom cs).map fun (s, rest) => (String.ofList s, rest)
  | _ => none

end HierarchyAccessors.Toml
