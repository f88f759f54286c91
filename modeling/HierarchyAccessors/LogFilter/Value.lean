import HierarchyAccessors.Double.Shortest
import HierarchyAccessors.Pattern.WellFormed

/-!
# Values of fields in a log filter

The text after the name of a field is a switch, an integer of 64 bits, a double or else a pattern,
whichever it can be read as first. A value is shown in one form, however it was written.
-/

namespace HierarchyAccessors

/-- The value that the field of a record must have. -/
inductive LogValue
  | switch (b : Bool)
  | real (x : Double)
  | notANumber
  | natural (n : Nat)
  /-- An integer that is written with a minus sign. -/
  | integer (n : Int)
  | pattern (text : String)
deriving DecidableEq

namespace LogValue

/-! ## Reading -/

/-- A text of digits alone. -/
def digits? (cs : List Char) : Option Nat :=
  if cs.isEmpty || !cs.all Char.isDigit then none else some (Nat.ofDigitChars 10 cs 0)

/-- An integer of 64 bits, unsigned unless a minus sign stands before it. -/
def ofInteger? (negative : Bool) (cs : List Char) : Option LogValue :=
  (digits? cs).bind fun n =>
    if negative then if n ≤ 1 <<< 63 then some (integer (-n)) else none
    else if n < UInt64.size then some (natural n)
    else none

/-- A power of ten. -/
def power? (cs : List Char) : Option Int :=
  match cs with
  | '-' :: cs => (digits? cs).map fun n => -n
  | '+' :: cs => (digits? cs).map Int.ofNat
  | cs => (digits? cs).map Int.ofNat

/-- A decimal without its sign: digits, of which there is at least one, around a point that may be
missing, and a power of ten after an `e`. -/
def ofDecimal? (negative : Bool) (cs : List Char) : Option LogValue := do
  let isMark (c : Char) := c == 'e' || c == 'E'
  let mantissa := cs.takeWhile (!isMark ·)
  let places := (mantissa.dropWhile (· != '.')).tail
  let significand ← digits? (mantissa.takeWhile (· != '.') ++ places)
  let power ← match cs.dropWhile (!isMark ·) with
    | [] => some 0
    | _ :: cs => power? cs
  return real ⟨negative, Double.rankOfDecimal significand (power - places.length)⟩

/-- A number without its sign. -/
def ofNumber? (negative : Bool) (cs : List Char) : Option LogValue :=
  let name := String.ofList (cs.map Char.toLower)
  if name = "inf" ∨ name = "infinity" then some (real ⟨negative, Double.infinity⟩)
  else if name = "nan" then some notANumber
  else (ofInteger? negative cs).or (ofDecimal? negative cs)

/-- The value that a text stands for; none if it stands for no other and is no pattern. -/
def ofText? (cs : List Char) : Option LogValue :=
  if cs = "true".toList then some (switch true)
  else if cs = "false".toList then some (switch false)
  else
    let number? := match cs with
      | '-' :: cs => ofNumber? true cs
      | '+' :: cs => ofNumber? false cs
      | cs => ofNumber? false cs
    number?.or (if Pattern.isWellFormed cs then some (pattern (String.ofList cs)) else none)

/-! ## Order and text -/

/-- The place of the kind of a value among all kinds. -/
def kindOrder : LogValue → Nat
  | switch _ => 0
  | real _ => 1
  | notANumber => 2
  | natural _ => 3
  | integer _ => 4
  | pattern _ => 5

/-- Compares values of one kind by what they are, and others by their kinds. -/
def compareValues : LogValue → LogValue → Ordering
  | switch a, switch b => compare a.toNat b.toNat
  | real a, real b => a.compareValues b
  | natural a, natural b => compare a b
  | integer a, integer b => compare a b
  | pattern a, pattern b => compare a b
  | a, b => compare a.kindOrder b.kindOrder

def text : LogValue → String
  | switch b => toString b
  | real x => x.text
  | notANumber => "NaN"
  | natural n => toString n
  | integer n => toString n
  | pattern text => text

end LogValue

end HierarchyAccessors
