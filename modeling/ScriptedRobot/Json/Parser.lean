import ScriptedRobot.Json.Token

/-!
# Reading JSON

The tokens drive a machine with a stack: one frame for each array or object that is still open. A
text is read when the machine ends with one finished value and nothing open. The stack has a greatest
height, `depthLimit`.
-/

namespace ScriptedRobot.Json

open Text

inductive Fault where
  | malformed
  /-- It holds an integer that is too long. -/
  | numeral (fault : NumeralFault)
  /-- Too many arrays and objects are open at once. -/
  | tooDeep
  deriving DecidableEq, Repr

/-- What a number is worth. One without point and exponent is an integer. -/
def Literal.value (l : Literal) : Except Fault Json :=
  if l.fraction.isEmpty ∧ l.exponent.isNone then
    let read := Numeral.read (if l.negative then '-' :: l.whole else l.whole)
    (read.map int).mapError Fault.numeral
  else
    let value (ds : List Char) : Nat := Numeral.ofDigits 10 (ds.map fun c => c.toNat - '0'.toNat)
    let exponent : Int := match l.exponent with
      | none => 0
      | some (negative, ds) => Numeral.signed negative (value ds)
    .ok (float (.ofDecimal l.negative (value (l.whole ++ l.fraction)) (exponent - l.fraction.length)))

/-- Something that is still open. -/
inductive Frame where
  | array (before : List Json)
  /-- An object with its fields so far, the last one first, and the key of the field being read. -/
  | field (before : List (String × Json)) (key : String)

/-- What the machine waits for. -/
inductive Phase where
  | value
  | firstElement
  | firstKey
  | key (before : List (String × Json))
  | colon (before : List (String × Json)) (key : String)
  | after (value : Json)

/-- The machine: what is open, innermost first, and what it waits for. -/
structure Machine where
  stack : List Frame
  phase : Phase

def Machine.start : Machine := ⟨[], .value⟩

/-- How many arrays and objects may be open at once. -/
def depthLimit : Nat := 990

/-- Opens an array or an object inside those that are open, unless that is too deep. -/
def Machine.openInside (stack : List Frame) (phase : Phase) : Except Fault Machine :=
  if stack.length < depthLimit then .ok ⟨stack, phase⟩ else .error .tooDeep

/-- A token where a value may start. -/
def Machine.startValue (stack : List Frame) : Token → Except Fault Machine
  | .openArray => openInside stack .firstElement
  | .openObject => openInside stack .firstKey
  | .str s => .ok ⟨stack, .after (str s)⟩
  | .word v => .ok ⟨stack, .after v⟩
  | .number literal => literal.value.map fun v => ⟨stack, .after v⟩
  | _ => .error .malformed

/-- A token after a finished value: it goes on with the innermost thing that is open, or ends it. -/
def Machine.afterValue (value : Json) : List Frame → Token → Except Fault Machine
  | .array before :: stack, .comma => .ok ⟨.array (value :: before) :: stack, .value⟩
  | .array before :: stack, .closeArray => .ok ⟨stack, .after (arr (value :: before).reverse)⟩
  | .field before key :: stack, .comma => .ok ⟨stack, .key ((key, value) :: before)⟩
  | .field before key :: stack, .closeObject =>
    .ok ⟨stack, .after (ofFields ((key, value) :: before).reverse)⟩
  | _, _ => .error .malformed

/-- One token. -/
def Machine.step (m : Machine) (token : Token) : Except Fault Machine :=
  match m.phase, token with
  | .value, token => startValue m.stack token
  | .firstElement, .closeArray => .ok ⟨m.stack, .after (arr [])⟩
  | .firstElement, token => startValue (.array [] :: m.stack) token
  | .firstKey, .closeObject => .ok ⟨m.stack, .after (obj [])⟩
  | .firstKey, .str key => .ok ⟨m.stack, .colon [] key⟩
  | .key before, .str key => .ok ⟨m.stack, .colon before key⟩
  | .colon before key, .colon => .ok ⟨.field before key :: m.stack, .value⟩
  | .after value, token => afterValue value m.stack token
  | _, _ => .error .malformed

/-- The value that the machine has finished, if nothing is open. -/
def Machine.result (m : Machine) : Except Fault Json :=
  match m.stack, m.phase with
  | [], .after value => .ok value
  | _, _ => .error .malformed

def read (cs : List Char) : Except Fault Json := do
  (← (tokens cs).foldlM Machine.step .start).result

def ofString (s : String) : Except Fault Json := read s.toList

end ScriptedRobot.Json
