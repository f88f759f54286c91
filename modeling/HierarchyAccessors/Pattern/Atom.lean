import HierarchyAccessors.Text.Blank
import HierarchyAccessors.Text.Hexadecimal

/-!
# The atoms of a pattern

A pattern is a regular expression that is run on the bytes of a text, without tables of Unicode's
classes and cases. What needs such a table is refused, and so is what could match a part of a
character (`Atom.standsAlone`, `Atom.standsInSet`). Both depend on the flags in force.
-/

namespace HierarchyAccessors.Pattern

/-- The flags that decide what is a pattern. -/
structure Flags where
  /-- The case of letters does not matter. -/
  ignoreCase : Bool := false
  /-- Characters are matched, rather than bytes. -/
  unicode : Bool := true
  /-- White space and comments are passed over. -/
  extended : Bool := false
deriving DecidableEq

namespace Flags

/-- The letters of all flags. -/
def letters : List Char := ['i', 'm', 's', 'U', 'u', 'R', 'x']

/-- Sets the flag of a letter. -/
def set (flags : Flags) (letter : Char) (on : Bool) : Flags :=
  match letter with
  | 'i' => { flags with ignoreCase := on }
  | 'u' => { flags with unicode := on }
  | 'x' => { flags with extended := on }
  | _ => flags

/-- The flags after letters that are set and, after a hyphen, letters that are cleared; each may
come once, and the hyphen not last. -/
def change? (flags : Flags) (items : List Char) : Option Flags :=
  if items.Nodup ∧ items.all (fun c => c == '-' || letters.contains c) ∧
      items.getLast? ≠ some '-' then
    let raised := (items.takeWhile (· != '-')).foldl (·.set · true) flags
    some ((items.dropWhile (· != '-')).foldl (·.set · false) raised)
  else none

/-- The text after white space and comments, where these are passed over. -/
def skip (flags : Flags) (cs : List Char) : List Char :=
  if flags.extended then skipFrom false cs else cs
where
  skipFrom (comment : Bool) : List Char → List Char
    | [] => []
    | c :: cs =>
      if comment then skipFrom (c != '\n') cs
      else if c == '#' then skipFrom true cs
      else if Text.isBlank c then skipFrom false cs
      else c :: cs

end Flags

/-! ## Escapes -/

/-- A single character of a pattern, or an escape. -/
inductive Atom
  /-- A character; `short` if it is written with two hexadecimal digits. -/
  | literal (c : Char) (short : Bool)
  /-- A class of characters with a letter of its own, or the characters outside it. -/
  | shorthand (negated : Bool)
  /-- The beginning or the end of the text. -/
  | edge
  /-- The beginning, the end or either end of a word, or any other place. -/
  | wordEdge
deriving DecidableEq

namespace Atom

/-- The character with a code point of so many hexadecimal digits. -/
def scalar? (flags : Flags) : (count code : Nat) → List Char → Option (Char × List Char)
  | 0, code, cs => if code.isValidChar then some (Char.ofNat code, cs) else none
  | count + 1, code, cs =>
    match flags.skip cs with
    | [] => none
    | c :: cs => do scalar? flags count (16 * code + (← Text.hexDigit? c)) cs

/-- The atom after a backslash, and the text after it. -/
def escape? (flags : Flags) : List Char → Option (Atom × List Char)
  | [] => none
  | c :: cs =>
    let literal (count : Nat) :=
      (scalar? flags count 0 cs).map fun (c, cs) => (Atom.literal c (count == 2), cs)
    match c with
    | 'x' => literal 2
    | 'u' => literal 4
    | 'U' => literal 8
    | 'd' | 's' | 'w' => some (.shorthand false, cs)
    | 'D' | 'S' | 'W' => some (.shorthand true, cs)
    | 'A' | 'z' => some (.edge, cs)
    | 'b' | 'B' | '<' | '>' => some (.wordEdge, cs)
    | 'a' => some (.literal '\x07' false, cs)
    | 'f' => some (.literal '\x0c' false, cs)
    | 't' => some (.literal '\t' false, cs)
    | 'n' => some (.literal '\n' false, cs)
    | 'r' => some (.literal '\r' false, cs)
    | 'v' => some (.literal '\x0b' false, cs)
    | c => if c.toNat < 0x80 && !c.isAlphanum then some (.literal c false, cs) else none

/-- Whether the atom may stand outside sets. Case is ignored only for ASCII, without Unicode. -/
def standsAlone (flags : Flags) : Atom → Bool
  | literal c short => if flags.unicode then !flags.ignoreCase else !short || c.toNat < 0x80
  | shorthand negated => !flags.unicode && !negated
  | edge => true
  | wordEdge => !flags.unicode

/-- Whether the atom may stand in a set. -/
def standsInSet (flags : Flags) : Atom → Bool
  | literal c _ => if flags.unicode then !flags.ignoreCase else c.toNat < 0x80
  | shorthand negated => !flags.unicode && !negated
  | edge | wordEdge => false

end Atom

end HierarchyAccessors.Pattern
