import HierarchyAccessors.Configuration.Setting
import HierarchyAccessors.Text.Blank
import HierarchyAccessors.Toml.Quoted

/-!
# Settings spelt out in the environment

The text of an environment variable may spell a switch, a number, a quoted text or character, a
list or a table; any text that spells none of these completely stands for itself
(`Setting.ofText`).
-/

namespace HierarchyAccessors.Spelling

def isSpace (c : Char) : Bool :=
  c == ' ' || c == '\t' || c == '\n' || c == '\r' || c == '\x0c'

/-- Characters that end a bare text. -/
def isSeparator (c : Char) : Bool :=
  c == ',' || c == '\x7b' || c == '\x7d' || c == '[' || c == ']'

/-! ## Numbers -/

/-- Digits with an optional sign that fit into 64 bits. -/
def isInteger (cs : List Char) : Bool :=
  let (sign, ds) := match cs with
    | '-' :: ds => (true, ds)
    | '+' :: ds => (false, ds)
    | ds => (false, ds)
  let n := Nat.ofDigitChars 10 ds 0
  !ds.isEmpty && ds.all Char.isDigit && (if sign then n ≤ 1 <<< 63 else n < UInt64.size)

/-- A decimal number with a point, perhaps with an exponent. -/
def isFloat (cs : List Char) : Bool :=
  let unsigned (cs : List Char) := match cs with
    | '-' :: ds => ds
    | '+' :: ds => ds
    | ds => ds
  let isMark (c : Char) := c == 'e' || c == 'E'
  let cs := unsigned cs
  let mantissa := cs.takeWhile (!isMark ·)
  let exponent := cs.dropWhile (!isMark ·)
  let whole := mantissa.takeWhile (· != '.')
  let fraction := mantissa.dropWhile (· != '.')
  let power := unsigned exponent.tail
  !fraction.isEmpty && whole.all Char.isDigit && fraction.tail.all Char.isDigit &&
    !(whole.isEmpty && fraction.tail.isEmpty) &&
    (exponent.isEmpty || (!power.isEmpty && power.all Char.isDigit))

/-- What a bare text stands for. -/
def bare (cs : List Char) : Setting :=
  if isFloat cs || isInteger cs then .other else .text (String.ofList cs)

/-! ## Quoted texts -/

/-- The inside of a quoted text up to the quote that ends it, escapes and all. -/
def splitAtQuote : List Char → Option (List Char × List Char)
  | [] => none
  | '"' :: cs => some ([], cs)
  | '\\' :: c :: cs => (splitAtQuote cs).map fun (inside, rest) => ('\\' :: c :: inside, rest)
  | c :: cs => (splitAtQuote cs).map fun (inside, rest) => (c :: inside, rest)

/-- A text in quotes. Its escapes are those of the configuration file. -/
def quoted? (cs : List Char) : Option (String × List Char) := do
  let (inside, rest) ← splitAtQuote cs
  let (s, left) ← Toml.basicFrom (inside.length + 2) (inside ++ ['"'])
  if left.isEmpty then some (String.ofList s, rest) else none

/-! ## Lists and tables -/

def isKeyChar (c : Char) : Bool :=
  c.isAlphanum || c == '_' || c == '-'

/-- The text after the key of a table and its equals sign. -/
def keySign? (cs : List Char) : Option (List Char) :=
  let cs := cs.dropWhile isSpace
  let afterKey : Option (List Char) := match cs with
    | '"' :: rest => (quoted? rest).map Prod.snd
    | c :: _ => if isKeyChar c then some (cs.dropWhile isKeyChar) else none
    | [] => none
  match afterKey.map (·.dropWhile isSpace) with
  | some ('=' :: rest) => some rest
  | _ => none

/-- The text after the items of a list or the entries of a table, with a comma after each but the
last; `fuel` is at least the length of the text. -/
def itemsRest? (item : List Char → Option (List Char)) (close : Char) :
    (fuel : Nat) → List Char → Option (List Char)
  | 0, _ => none
  | fuel + 1, cs =>
    if cs.head? = some close then some cs.tail
    else
      match item cs with
      | some (',' :: rest) => itemsRest? item close fuel rest
      | some (c :: rest) => if c = close then some rest else none
      | _ => none

/-- The setting at the start of the text, and the text after it; `depth` is at least the length of
the text. -/
def value? : (depth : Nat) → List Char → Option (Setting × List Char)
  | 0, _ => none
  | depth + 1, cs =>
    let found : Option (Setting × List Char) := match cs.dropWhile isSpace with
      | 't' :: 'r' :: 'u' :: 'e' :: rest => some (.switch true, rest)
      | 'f' :: 'a' :: 'l' :: 's' :: 'e' :: rest => some (.switch false, rest)
      | '\x7b' :: rest =>
        let entry (cs : List Char) :=
          (keySign? cs).bind fun rest => (value? depth rest).map Prod.snd
        (itemsRest? entry '\x7d' (rest.length + 1) rest).map (Setting.other, ·)
      | '[' :: rest =>
        let item (cs : List Char) := (value? depth cs).map Prod.snd
        (itemsRest? item ']' (rest.length + 1) rest).map (Setting.other, ·)
      | '"' :: rest => (quoted? rest).map fun (s, rest) => (.text s, rest)
      | '\'' :: rest =>
        match rest with
        | c :: '\'' :: rest => some (.text c.toString, rest)
        | _ => none
      | cs =>
        some (bare (Text.trim (cs.takeWhile (!isSeparator ·))), cs.dropWhile (!isSeparator ·))
    found.map fun (v, rest) => (v, rest.dropWhile isSpace)

end HierarchyAccessors.Spelling

namespace HierarchyAccessors

/-- The setting that a text spells. White space around it is only dropped if it spells one. -/
def Setting.ofText (s : String) : Setting :=
  let cs := s.toList
  match Spelling.value? (cs.length + 1) cs with
  | some (v, []) => v
  | _ => .text s

end HierarchyAccessors
