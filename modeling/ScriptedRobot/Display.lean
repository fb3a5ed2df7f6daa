/-!
# Displays

What is put before a player, as a structure: lines of text, panels, groups, columns and tables. How
wide things are and where they stand on a screen is left to whoever draws them.
-/

namespace ScriptedRobot

structure StyledSymbol where
  symbol : Char
  style : String
  deriving DecidableEq, Repr

structure Table where
  title : Option String
  /-- Are the names of the columns shown? -/
  hasHeader : Bool
  header : List String
  rows : List (List String) := []
  deriving DecidableEq, Repr

inductive Display where
  | line (text : String)
  /-- A text in one style, if any. -/
  | label (text : String) (style : Option String)
  | symbols (row : List StyledSymbol)
  | panel (title : String) (body : Display)
  | group (parts : List Display)
  | columns (parts : List Display)
  | table (content : Table)

namespace Display

/-- The control characters that would move the cursor: bell, backspace, vertical tab, form feed and
carriage return. -/
def movesCursor (c : Char) : Bool := ['\x07', '\x08', '\x0b', '\x0c', '\r'].contains c

def ofText (text : String) (style : Option String) : Display :=
  label (String.ofList (text.toList.filter fun c => !movesCursor c)) style

end Display

end ScriptedRobot
