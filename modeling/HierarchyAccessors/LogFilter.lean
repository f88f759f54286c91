import HierarchyAccessors.LogFilter.Value

/-!
# Log filters

A filter is a list of directives, separated by commas. A directive sets a level, for everything or
for the records of a target, of a span or with a field. A filter is shown with the directives for
targets and fields first and those for spans after them, each in order of how specific they are.
-/

namespace HierarchyAccessors

inductive LogLevel
  | off
  | error
  | warn
  | info
  | debug
  | trace
deriving DecidableEq

namespace LogLevel

def text : LogLevel → String
  | off => "off"
  | error => "error"
  | warn => "warn"
  | info => "info"
  | debug => "debug"
  | trace => "trace"

/-- A level by its name, in whatever case. -/
def ofName? (s : String) : Option LogLevel :=
  [off, error, warn, info, debug, trace].find? fun level => level.text == s.toLower

/-- A level by its number, from 0 for `off` to 5 for `trace`. -/
def ofNumber? (cs : List Char) : Option LogLevel :=
  let digits := match cs with
    | '+' :: ds => ds
    | ds => ds
  if digits.isEmpty || !digits.all Char.isDigit then none
  else [off, error, warn, info, debug, trace][Nat.ofDigitChars 10 digits 0]?

/-- A level by its name or number. -/
def ofText? (cs : List Char) : Option LogLevel :=
  (ofNumber? cs).or (ofName? (String.ofList cs))

end LogLevel

/-- A field that a record must have, and the value that it must have, if that matters. -/
structure LogField where
  name : String
  value : Option LogValue
deriving DecidableEq

/-- A directive; without target, span and field it is for everything. -/
structure LogDirective where
  target : Option String := none
  span : Option String := none
  field : Option LogField := none
  level : LogLevel := .trace
deriving DecidableEq

namespace LogDirective

/-! ## Reading -/

/-- The bytes that a text takes up. -/
def size (cs : List Char) : Nat :=
  (String.ofList cs).utf8ByteSize

/-- Splits a text at a place that is counted in bytes. -/
def splitAtByte : (place : Nat) → List Char → List Char × List Char
  | 0, cs => ([], cs)
  | _, [] => ([], [])
  | place + 1, c :: cs =>
    let (front, back) := splitAtByte (place + 1 - c.utf8Size) cs
    (c :: front, back)

theorem splitAtByte_append (place : Nat) (cs : List Char) :
    (splitAtByte place cs).1 ++ (splitAtByte place cs).2 = cs := by
  fun_induction splitAtByte place cs <;> simp_all

/-- The part of a text between two places. -/
def slice (cs : List Char) (first last : Nat) : List Char :=
  (splitAtByte (last - first) (splitAtByte first cs).2).1

/-- A level after its equals sign. -/
def readLevel (d : LogDirective) (cs : List Char) : Option LogDirective :=
  if cs.isEmpty then some d else (LogLevel.ofText? cs).map fun level => { d with level }

/-- The field between braces. -/
def readField (cs : List Char) : Option LogField :=
  if cs.isEmpty then none
  else
    let name := String.ofList (cs.takeWhile (· != '='))
    match cs.dropWhile (· != '=') with
    | [] => some ⟨name, none⟩
    | _ :: rest => (LogValue.ofText? (rest.takeWhile (· != '='))).map fun v => ⟨name, some v⟩

/-- What may follow the closing bracket of a span, before which there are `place` bytes; `whole` is
the piece before it was trimmed, and its places are counted from its start. -/
def readAfterSpan (d : LogDirective) (whole : List Char) (place : Nat) :
    List Char → Option LogDirective
  | [] => some d
  | '=' :: _ => d.readLevel (splitAtByte (place + 1) whole).2
  | _ => none

/-- A span, and a field of it, after the opening bracket. -/
def readSpan (d : LogDirective) (whole : List Char) (place : Nat) (cs : List Char) :
    Option LogDirective :=
  let isEnd (c : Char) := c == ']' || c == '\x7b'
  let close := place + size (cs.takeWhile (!isEnd ·))
  let span := slice whole place close
  match cs.dropWhile (!isEnd ·) with
  | ']' :: rest =>
    { d with span := some (String.ofList span) }.readAfterSpan whole (close + 1) rest
  | '\x7b' :: inside =>
    let brace := close + 1 + size (inside.takeWhile (· != '\x7d'))
    match inside.dropWhile (· != '\x7d') with
    | '\x7d' :: ']' :: rest => do
      let field ← readField (slice whole (close + 1) brace)
      let span := if span.isEmpty then none else some (String.ofList span)
      { d with span, field := some field }.readAfterSpan whole (brace + 2) rest
    | _ => none
  | _ => none

/-- Whether a directive may begin with the character. -/
def canBegin (c : Char) : Bool :=
  c == '-' || c == ':' || c == '_' || Text.isAlphanumeric c

/-- One directive. White space around it is passed over when its parts are looked for, but the
parts are counted off from where it begins. -/
def read (whole : List Char) : Option LogDirective :=
  match Text.trim whole with
  | [] => none
  | '[' :: cs => readSpan {} whole 1 cs
  | c :: cs =>
    if !canBegin c then none
    else
      let isEnd (c : Char) := c == '=' || c == '['
      let place := size (c :: cs.takeWhile (!isEnd ·))
      let target := some (String.ofList (splitAtByte place whole).1)
      match cs.dropWhile (!isEnd ·) with
      | '=' :: _ => LogDirective.readLevel { target } (splitAtByte (place + 1) whole).2
      | '[' :: rest => readSpan { target } whole (place + 1) rest
      | _ =>
        match LogLevel.ofText? whole with
        | some level => some { level }
        | none => some { target := some (String.ofList whole) }

/-! ## Order and text -/

/-- Whether the directive can be judged without looking at spans or at values of fields. -/
def isStatic (d : LogDirective) : Bool :=
  d.span.isNone && d.field.all (·.value.isNone)

/-- Whether the directive concerns spans or fields. -/
def isDynamic (d : LogDirective) : Bool :=
  d.span.isSome || d.field.isSome

/-- What is absent comes before all else. -/
def compareOptions (compare : α → α → Ordering) : Option α → Option α → Ordering
  | none, none => .eq
  | none, some _ => .lt
  | some _, none => .gt
  | some a, some b => compare a b

/-- A field with a value is the greater one. -/
def compareFields (a b : LogField) : Ordering :=
  ((compare a.value.isSome.toNat b.value.isSome.toNat).then (compare a.name b.name)).then
    (compareOptions LogValue.compareValues a.value b.value)

/-- The bytes of a target; an absent target is shorter than an empty one. -/
def targetSize (d : LogDirective) : Nat :=
  match d.target with
  | none => 0
  | some target => target.utf8ByteSize + 1

/-- The more specific directive is the greater one. -/
def compareSpecificity (a b : LogDirective) : Ordering :=
  ((compare a.targetSize b.targetSize).then
    ((compare a.span.isSome.toNat b.span.isSome.toNat).then
      (compare a.field.isSome.toNat b.field.isSome.toNat))).then
    ((compareOptions compare a.target b.target).then
      ((compareOptions compare a.span b.span).then (compareOptions compareFields a.field b.field)))

/-- Puts a directive among others, the most specific first, in place of one that is equally
specific in every respect. -/
def place (d : LogDirective) : List LogDirective → List LogDirective
  | [] => [d]
  | e :: rest =>
    match compareSpecificity d e with
    | .gt => d :: e :: rest
    | .eq => d :: rest
    | .lt => e :: place d rest

def fieldText (field : LogField) : String :=
  field.name ++ (field.value.elim "" fun value => "=" ++ value.text)

/-- The directive as it is shown. -/
def text (d : LogDirective) : String :=
  let inside := d.span.getD "" ++ (d.field.elim "" fun field => "\x7b" ++ fieldText field ++ "\x7d")
  let brackets := if d.isDynamic then "[" ++ inside ++ "]" else ""
  let subject := d.target.getD "" ++ brackets
  (if d.target.isSome || d.isDynamic then subject ++ "=" else "") ++ d.level.text

end LogDirective

namespace LogFilter

/-- The environment variable that gives a filter. -/
def variableName : String := "ACCESSORGEN_LOG"

/-- Splits a text at its commas. -/
def pieces (cs : List Char) : List (List Char) :=
  (cs.splitOn ',').filter (!·.isEmpty)

/-- The filter that the directives make, as it is shown. -/
def textOf (directives : List LogDirective) : String :=
  let statics := (directives.filter fun d => d.isStatic && !d.isDynamic) ++
    directives.filter fun d => d.isStatic && d.isDynamic
  let dynamics := directives.filter (·.isDynamic)
  let sorted (ds : List LogDirective) := ds.foldl (fun placed d => d.place placed) []
  ",".intercalate ((sorted statics ++ sorted dynamics).map (·.text))

/-- The filter in use: the one that is given, unless there is none or it cannot be read. -/
def text (given : Option String) (verbose : Bool) : String :=
  let standard := if verbose then "debug" else "warn"
  match given with
  | none => standard
  | some s =>
    match (pieces s.toList).mapM LogDirective.read with
    | none => standard
    | some directives => textOf directives

end LogFilter

end HierarchyAccessors
