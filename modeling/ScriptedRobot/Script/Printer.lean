import ScriptedRobot.Command

/-!
# Writing scripts

The canonical text of a command: a call that a script may hold on a line of its own.
-/

namespace ScriptedRobot.Script

/-- One character of a text literal. -/
def escaped : Char → List Char
  | '\\' => ['\\', '\\']
  | '"' => ['\\', '"']
  | '\n' => ['\\', 'n']
  | '\t' => ['\\', 't']
  | c => [c]

/-- A text as a literal between double quotes. -/
def literal (text : String) : String :=
  String.ofList ('"' :: text.toList.flatMap escaped ++ ['"'])

def flagWord (b : Bool) : String := if b then "true" else "false"

/-- The canonical text of a command. -/
def commandText : Command → String
  | .move h => "move(" ++ h.word ++ ")"
  | .grab => "grab()"
  | .scan h => "scan(" ++ h.word ++ ")"
  | .searchAll => "search_all()"
  | .setAutoGrab on => "set_auto_grab(" ++ flagWord on ++ ")"
  | .laserDirection h => "laser_direction(" ++ h.word ++ ")"
  | .laserTile p => "laser_tile" ++ p.text
  | .openDoor wide => "open_door(" ++ flagWord wide ++ ")"
  | .skipLevel => "skip_level()"
  | .gotoLevel n => "goto_level(" ++ toString n ++ ")"
  | .println text => "println!(" ++ literal text ++ ")"
  | .eprintln text => "eprintln!(" ++ literal text ++ ")"
  | .panic none => "panic!()"
  | .panic (some text) => "panic!(" ++ literal text ++ ")"

end ScriptedRobot.Script
