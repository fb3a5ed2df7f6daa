import ScriptedRobot.Json
import ScriptedRobot.Text.Numeral

/-!
# The limits of what is written

How deep a value goes, how many arrays and objects are open at once in its text, and whether all its
integers are short enough to be written.
-/

namespace ScriptedRobot.Json

mutual

/-- How deep a value goes: the most values that are inside one another, the value itself included. -/
def depth : Json → Nat
  | arr elements => elementsDepth elements + 1
  | obj fields => fieldsDepth fields + 1
  | _ => 1

def elementsDepth : List Json → Nat
  | [] => 0
  | value :: rest => max value.depth (elementsDepth rest)

def fieldsDepth : List (String × Json) → Nat
  | [] => 0
  | (_, value) :: rest => max value.depth (fieldsDepth rest)

end

mutual

/-- How many arrays and objects are open at once at most where a value is written. -/
def nesting : Json → Nat
  | arr elements => elementsNesting elements + 1
  | obj fields => fieldsNesting fields + 1
  | _ => 0

def elementsNesting : List Json → Nat
  | [] => 0
  | value :: rest => max value.nesting (elementsNesting rest)

def fieldsNesting : List (String × Json) → Nat
  | [] => 0
  | (_, value) :: rest => max value.nesting (fieldsNesting rest)

end

mutual

/-- Are all integers in a value short enough to be written? -/
def isWritable : Json → Bool
  | int n => Text.Numeral.isWritable n
  | arr elements => areWritable elements
  | obj fields => fieldsAreWritable fields
  | _ => true

def areWritable : List Json → Bool
  | [] => true
  | value :: rest => value.isWritable && areWritable rest

def fieldsAreWritable : List (String × Json) → Bool
  | [] => true
  | (_, value) :: rest => value.isWritable && fieldsAreWritable rest

end

end ScriptedRobot.Json
