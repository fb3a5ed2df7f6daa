import ScriptedRobot.Binary64.Shortest
import ScriptedRobot.Json
import ScriptedRobot.Text.Quoted

/-!
# Showing values to players

A value in a message. A text by itself is shown bare; inside a list or an object it stands between
quotes.
-/

namespace ScriptedRobot.Json

open Text

/-- The words for the numbers that are not finite, as players see them. -/
def shownSpelling : Binary64.Spelling := ⟨"nan", "inf"⟩

mutual

/-- A value inside a list or an object. -/
def inner : Json → List Char
  | null => "None".toList
  | bool true => "True".toList
  | bool false => "False".toList
  | int n => (toString n).toList
  | float x => (x.text shownSpelling).toList
  | str s => quoted s.toList
  | arr [] => ['[', ']']
  | arr (value :: rest) => '[' :: inner value ++ innerElements rest
  | obj [] => ['\x7b', '\x7d']
  | obj ((key, value) :: rest) =>
    '\x7b' :: quoted key.toList ++ ':' :: ' ' :: inner value ++ innerFields rest

/-- The elements after the first, and the closing bracket. -/
def innerElements : List Json → List Char
  | [] => [']']
  | value :: rest => ',' :: ' ' :: inner value ++ innerElements rest

/-- The fields after the first, and the closing brace. -/
def innerFields : List (String × Json) → List Char
  | [] => ['\x7d']
  | (key, value) :: rest =>
    ',' :: ' ' :: quoted key.toList ++ ':' :: ' ' :: inner value ++ innerFields rest

end

def shown : Json → String
  | str s => s
  | value => String.ofList (inner value)

end ScriptedRobot.Json
