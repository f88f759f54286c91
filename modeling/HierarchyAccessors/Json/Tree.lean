import HierarchyAccessors.Json.Token

/-!
# Documents as far as they can be read

`Tree.ofTokens` arranges tokens into a tree and stops at the first token that does not fit; the
tree then holds everything before that token, and at its frontier what is wrong there. A reader
walks the tree from left to right and reports the first fault it meets, so nothing behind the
frontier matters, and neither does anything behind a fault of the reader's own.

The tokens are taken one by one. The containers that are still open form a stack of frames, and
the two functions of the machine are named for what comes next: `want`, where a value must follow,
and `resume`, where a value has just been completed.
-/

namespace HierarchyAccessors.Json

/-- How a container ends. -/
inductive Ending
  /-- With its closing bracket. -/
  | closed
  /-- After a value, with something that is neither a comma nor the closing bracket. -/
  | cut (fault : Fault)
  /-- In an object, where a key must follow, with the token that stands there instead. -/
  | unkeyed (next : Option Token)
deriving DecidableEq

/-- A value as far as it can be read. -/
inductive Tree
  | null
  | bool (b : Bool)
  | number (n : Numeral)
  | string (q : Quoted)
  | array (items : List Tree) (ending : Ending)
  | object (entries : List (Quoted × Tree)) (ending : Ending)
  /-- Something that is no value, with the fault for a reader who wants it and for one who passes
  over it. -/
  | broken (read skipped : Fault)
  /-- The end of the text. -/
  | absent

/-- A container that is still open, with what it holds so far, latest first. -/
inductive Frame
  | items (before : List Tree)
  | entry (before : List (Quoted × Tree)) (key : Quoted)

namespace Frame

/-- The container that ends after `value`. -/
def close (value : Tree) (ending : Ending) : Frame → Tree
  | items before => .array (before.reverse ++ [value]) ending
  | entry before key => .object (before.reverse ++ [(key, value)]) ending

/-- The open containers around a value at which reading stops. -/
def plug (value : Tree) : List Frame → Tree
  | [] => value
  | frame :: frames => plug (frame.close value (.cut .ended)) frames

end Frame

namespace Tree

/-- Something stands here that begins no value. -/
def misplaced : Tree := .broken .malformed .malformed

/-- Reading stops at `value`. -/
def halt (value : Tree) (frames : List Frame) : Tree × List Token :=
  (Frame.plug value frames, [])

mutual

/-- A value must follow. -/
def want (frames : List Frame) : List Token → Tree × List Token
  | [] => halt .absent frames
  | .null :: ts => resume .null frames ts
  | .bool b :: ts => resume (.bool b) frames ts
  | .number n :: ts => resume (.number n) frames ts
  | .string q :: ts => resume (.string q) frames ts
  | .openBracket :: [] => halt (.array [] (.cut .ended)) frames
  | .openBracket :: .closeBracket :: ts => resume (.array [] .closed) frames ts
  | .openBracket :: t :: ts => want (.items [] :: frames) (t :: ts)
  | .openBrace :: [] => halt (.object [] (.unkeyed none)) frames
  | .openBrace :: .closeBrace :: ts => resume (.object [] .closed) frames ts
  | .openBrace :: .string k :: .colon :: ts => want (.entry [] k :: frames) ts
  | .openBrace :: .string k :: [] => halt (.object [(k, .absent)] .closed) frames
  | .openBrace :: .string k :: _ :: _ => halt (.object [(k, misplaced)] .closed) frames
  | .openBrace :: t :: _ => halt (.object [] (.unkeyed (some t))) frames
  | .broken read skipped :: _ => halt (.broken read skipped) frames
  | _ :: _ => halt misplaced frames

/-- The value has been completed inside the frames. -/
def resume (value : Tree) (frames : List Frame) (ts : List Token) : Tree × List Token :=
  match frames, ts with
  | [], ts => (value, ts)
  | frame :: frames, [] => halt (frame.close value (.cut .ended)) frames
  | .items before :: frames, .comma :: ts => want (.items (value :: before) :: frames) ts
  | .items before :: frames, .closeBracket :: ts =>
    resume (Frame.close value .closed (.items before)) frames ts
  | .entry before key :: frames, .comma :: .string k :: .colon :: ts =>
    want (.entry ((key, value) :: before) k :: frames) ts
  | .entry before key :: frames, .comma :: .string k :: [] =>
    halt (Frame.close .absent .closed (.entry ((key, value) :: before) k)) frames
  | .entry before key :: frames, .comma :: .string k :: _ :: _ =>
    halt (Frame.close misplaced .closed (.entry ((key, value) :: before) k)) frames
  | .entry before key :: frames, .comma :: ts =>
    halt (Frame.close value (.unkeyed ts.head?) (.entry before key)) frames
  | .entry before key :: frames, .closeBrace :: ts =>
    resume (Frame.close value .closed (.entry before key)) frames ts
  | frame :: frames, _ :: _ => halt (frame.close value (.cut .malformed)) frames

end

/-- The value at the start of the tokens, and the tokens after it. -/
def ofTokens (ts : List Token) : Tree × List Token :=
  want [] ts

end Tree

end HierarchyAccessors.Json
