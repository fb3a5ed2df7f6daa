import ScriptedRobot.Binary64.Shortest
import ScriptedRobot.Json
import ScriptedRobot.Text.Quoted

/-!
# Writing JSON

A value is written on one line, with `", "` between elements and `": "` after keys. Whatever is not a
visible character of ASCII is escaped in UTF-16 units.
-/

namespace ScriptedRobot.Json

open Text

def escapedUnit (unit : Nat) : List Char := '\\' :: 'u' :: hexDigits 4 unit

/-- A character inside a string. -/
def escapedChar (c : Char) : List Char :=
  match c with
  | '"' => ['\\', '"']
  | '\\' => ['\\', '\\']
  | '\n' => ['\\', 'n']
  | '\r' => ['\\', 'r']
  | '\t' => ['\\', 't']
  | '\x08' => ['\\', 'b']
  | '\x0c' => ['\\', 'f']
  | c =>
    let n := c.toNat
    if 0x20 ≤ n ∧ n ≤ 0x7E then [c]
    else if n < 0x10000 then escapedUnit n
    else
      escapedUnit (0xD800 + (n - 0x10000) / 0x400) ++ escapedUnit (0xDC00 + (n - 0x10000) % 0x400)

def stringText (s : String) : List Char := '"' :: s.toList.flatMap escapedChar ++ ['"']

/-- The words for the numbers that are not finite. -/
def spelling : Binary64.Spelling := ⟨"NaN", "Infinity"⟩

mutual

/-- A value as text. -/
def text : Json → List Char
  | null => "null".toList
  | bool true => "true".toList
  | bool false => "false".toList
  | int n => (toString n).toList
  | float x => (x.text spelling).toList
  | str s => stringText s
  | arr [] => ['[', ']']
  | arr (value :: rest) => '[' :: text value ++ elementsText rest
  | obj [] => ['\x7b', '\x7d']
  | obj ((key, value) :: rest) =>
    '\x7b' :: stringText key ++ ':' :: ' ' :: text value ++ fieldsText rest

/-- The elements after the first, and the closing bracket. -/
def elementsText : List Json → List Char
  | [] => [']']
  | value :: rest => ',' :: ' ' :: text value ++ elementsText rest

/-- The fields after the first, and the closing brace. -/
def fieldsText : List (String × Json) → List Char
  | [] => ['\x7d']
  | (key, value) :: rest =>
    ',' :: ' ' :: stringText key ++ ':' :: ' ' :: text value ++ fieldsText rest

end

def render (value : Json) : String := String.ofList (text value)

end ScriptedRobot.Json
