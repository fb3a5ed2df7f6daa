import ScriptedRobot.Position

/-!
# Commands

What a script can ask of the robot. A command carries exactly the argument that its kind needs.
-/

namespace ScriptedRobot

inductive CommandKind where
  | move
  | grab
  | scan
  | searchAll
  | setAutoGrab
  | laserDirection
  | laserTile
  | openDoor
  | skipLevel
  | gotoLevel
  | println
  | eprintln
  | panic
  deriving DecidableEq, Repr

namespace CommandKind

def all : List CommandKind :=
  [move, grab, scan, searchAll, setAutoGrab, laserDirection, laserTile, openDoor, skipLevel,
   gotoLevel, println, eprintln, panic]

/-- The name of a kind in records. -/
def tag : CommandKind → String
  | move => "MOVE"
  | grab => "GRAB"
  | scan => "SCAN"
  | searchAll => "SEARCH_ALL"
  | setAutoGrab => "SET_AUTO_GRAB"
  | laserDirection => "LASER_DIRECTION"
  | laserTile => "LASER_TILE"
  | openDoor => "OPEN_DOOR"
  | skipLevel => "SKIP_LEVEL"
  | gotoLevel => "GOTO_LEVEL"
  | println => "PRINTLN"
  | eprintln => "EPRINTLN"
  | panic => "PANIC"

/-- The kind that a record names. -/
def ofTag? (tag : String) : Option CommandKind := all.find? fun kind => kind.tag == tag

/-- How a call of this kind is written, as shown to players. -/
def signature : CommandKind → String
  | move => "move(up|down|left|right)"
  | grab => "grab()"
  | scan => "scan(up|down|left|right)"
  | searchAll => "search_all()"
  | setAutoGrab => "set_auto_grab(true|false)"
  | laserDirection => "laser_direction(up|down|left|right)"
  | laserTile => "laser_tile(x, y)"
  | openDoor => "open_door(true|false)"
  | skipLevel => "skip_level()"
  | gotoLevel => "goto_level(n)"
  | println => "println!(\"text\")"
  | eprintln => "eprintln!(\"text\")"
  | panic => "panic!(\"text\")"

end CommandKind

/-- A command with its argument. -/
inductive Command where
  /-- One step that way. -/
  | move (heading : Heading)
  | grab
  /-- Look ahead that way. -/
  | scan (heading : Heading)
  | searchAll
  | setAutoGrab (on : Bool)
  /-- Fire the laser that way. -/
  | laserDirection (heading : Heading)
  | laserTile (target : Position)
  /-- Open or close the nearest door. -/
  | openDoor (wide : Bool)
  | skipLevel
  /-- Jump to a level, counted from one. -/
  | gotoLevel (number : Int)
  | println (text : String)
  | eprintln (text : String)
  /-- Give up, perhaps with a message. -/
  | panic (message : Option String)
  deriving DecidableEq, Repr

def Command.kind : Command → CommandKind
  | move _ => .move
  | grab => .grab
  | scan _ => .scan
  | searchAll => .searchAll
  | setAutoGrab _ => .setAutoGrab
  | laserDirection _ => .laserDirection
  | laserTile _ => .laserTile
  | openDoor _ => .openDoor
  | skipLevel => .skipLevel
  | gotoLevel _ => .gotoLevel
  | println _ => .println
  | eprintln _ => .eprintln
  | panic _ => .panic

end ScriptedRobot
