import HierarchyAccessors.Double.Basic
import HierarchyAccessors.Toml.Quoted

/-!
# Numbers and dates of a configuration file

Only their form matters here: an integer must fit into 64 bits, a float must not overflow upwards,
and a date must exist.
-/

namespace HierarchyAccessors.Toml

open Text (hexDigit?)

/-! ## Numbers -/

/-- Digits with single underscores between them. -/
def isDigits (digit : Char → Bool) : List Char → Bool
  | [] => false
  | [c] => digit c
  | c :: '_' :: cs => digit c && isDigits digit cs
  | c :: cs => digit c && isDigits digit cs

def withoutUnderscores (cs : List Char) : List Char :=
  cs.filter (· != '_')

/-- The number that digits of a base spell. -/
def numberOf (base : Nat) (cs : List Char) : Nat :=
  cs.foldl (fun n c => n * base + (hexDigit? c).getD 0) 0

/-- A sign taken off the front. -/
def unsigned : List Char → Bool × List Char
  | '-' :: cs => (true, cs)
  | '+' :: cs => (false, cs)
  | cs => (false, cs)

/-- Decimal digits without a leading zero. -/
def isDecimal (cs : List Char) : Bool :=
  isDigits Char.isDigit cs && (cs.head? != some '0' || cs.length == 1)

/-- An integer of 64 bits. -/
def isInteger (cs : List Char) : Bool :=
  match cs with
  | '0' :: 'x' :: ds => isDigits (fun c => (hexDigit? c).isSome) ds && fits 16 ds
  | '0' :: 'o' :: ds => isDigits (fun c => '0' ≤ c && c ≤ '7') ds && fits 8 ds
  | '0' :: 'b' :: ds => isDigits (fun c => c == '0' || c == '1') ds && fits 2 ds
  | cs =>
    let (negative, ds) := unsigned cs
    let n := numberOf 10 (withoutUnderscores ds)
    isDecimal ds && (n < 1 <<< 63 || (negative && n == 1 <<< 63))
where
  fits (base : Nat) (ds : List Char) : Bool :=
    numberOf base (withoutUnderscores ds) < 1 <<< 63

/-- Whether a decimal number of the given power of ten is too large for a double. -/
def overflows (digits : List Char) (power : Int) : Bool :=
  Double.rankOfDecimal (numberOf 10 digits) power == Double.infinity

/-- A float that is not beyond the largest one. -/
def isFloat (cs : List Char) : Bool :=
  let (negative, cs) := unsigned cs
  if cs == ['i', 'n', 'f'] || cs == ['n', 'a', 'n'] then true
  else
    let isMark (c : Char) := c == 'e' || c == 'E'
    let mantissa := cs.takeWhile (!isMark ·)
    let exponent := cs.dropWhile (!isMark ·)
    let whole := mantissa.takeWhile (· != '.')
    let fraction := mantissa.dropWhile (· != '.')
    let (down, power) := unsigned exponent.tail
    let size : Int := numberOf 10 (withoutUnderscores power)
    let places := withoutUnderscores fraction.tail
    isDecimal whole &&
      (fraction.isEmpty || isDigits Char.isDigit fraction.tail) &&
      (exponent.isEmpty || isDigits Char.isDigit power) &&
      !(fraction.isEmpty && exponent.isEmpty) &&
      (negative || !overflows (withoutUnderscores whole ++ places)
        ((if down then -size else size) - places.length))

/-- Characters of which numbers consist. -/
def isNumeric (c : Char) : Bool :=
  c.isAlphanum || c == '_' || c == '+' || c == '-' || c == '.'

/-- The text after a number. -/
def number? (cs : List Char) : Option (List Char) :=
  let literal := cs.takeWhile isNumeric
  if isInteger literal || isFloat literal then some (cs.dropWhile isNumeric) else none

/-! ## Dates and times -/

/-- A number of exactly so many digits. -/
def digits? (count : Nat) (cs : List Char) : Option (Nat × List Char) :=
  let ds := cs.take count
  if ds.length = count ∧ ds.all Char.isDigit then some (numberOf 10 ds, cs.drop count) else none

/-- The text after a character. -/
def expect? (c : Char) : List Char → Option (List Char)
  | d :: cs => if c = d then some cs else none
  | [] => none

def daysInMonth (year month : Nat) : Nat :=
  if month = 2 then
    if year % 4 = 0 ∧ (year % 100 ≠ 0 ∨ year % 400 = 0) then 29 else 28
  else if month ∈ [4, 6, 9, 11] then 30
  else 31

/-- The text after a date that exists. -/
def date? (cs : List Char) : Option (List Char) := do
  let (year, cs) ← digits? 4 cs
  let cs ← expect? '-' cs
  let (month, cs) ← digits? 2 cs
  let cs ← expect? '-' cs
  let (day, cs) ← digits? 2 cs
  if 1 ≤ month ∧ month ≤ 12 ∧ 1 ≤ day ∧ day ≤ daysInMonth year month then some cs else none

/-- The text after a time of day; the sixtieth second is for leap seconds. -/
def time? (cs : List Char) : Option (List Char) := do
  let (hour, cs) ← digits? 2 cs
  let cs ← expect? ':' cs
  let (minute, cs) ← digits? 2 cs
  let cs ← expect? ':' cs
  let (second, cs) ← digits? 2 cs
  if hour ≤ 23 ∧ minute ≤ 59 ∧ second ≤ 60 then
    match cs with
    | '.' :: rest =>
      if rest.head?.any Char.isDigit then some (rest.dropWhile Char.isDigit) else some cs
    | _ => some cs
  else none

/-- The text after an offset from universal time. -/
def offset? : List Char → Option (List Char)
  | 'Z' :: cs | 'z' :: cs => some cs
  | '+' :: cs | '-' :: cs => do
    let (hour, cs) ← digits? 2 cs
    let cs ← expect? ':' cs
    let (minute, cs) ← digits? 2 cs
    if hour ≤ 23 ∧ minute ≤ 59 then some cs else none
  | _ => none

/-- The text after a time that follows a date, if there is one. -/
def timeOfDate (cs : List Char) : List Char :=
  match cs with
  | c :: rest =>
    if c == 'T' || c == 't' || c == ' ' then
      match time? rest with
      | some rest => (offset? rest).getD rest
      | none => cs
    else cs
  | [] => cs

/-- The text after a number, a date or a time. -/
def literal? (cs : List Char) : Option (List Char) :=
  if (digits? 4 cs).any fun (_, rest) => rest.head? = some '-' then (date? cs).map timeOfDate
  else if (digits? 2 cs).any fun (_, rest) => rest.head? = some ':' then time? cs
  else number? cs

end HierarchyAccessors.Toml
