import ScriptedRobot.Position
import ScriptedRobot.Text.Occurrence

/-!
# Answers to commands

Every command is answered. `Reply.text` is the wording. A batch is halted by an answer whose wording
speaks of an obstacle (`haltsBatch`); that looks at the words alone.
-/

namespace ScriptedRobot

/-- For how many turns a laser stuns an enemy. -/
def stunTurns : Nat := 5

/-- For how many turns a laser removes an obstacle. -/
def removalTurns : Nat := 2

/-- The answer to a command. -/
inductive Reply where
  /-- The level does not allow the command. -/
  | notAvailable
  /-- The way, or the view, is barred. -/
  | blocked
  | collision
  /-- There is nowhere to go on a completed level. -/
  | alreadyComplete
  | moved
  /-- A grab got items, tiles, both or nothing. -/
  | grabbed (items tiles : Bool)
  /-- A scan revealed something or nothing. -/
  | scanned (found : Bool)
  | autoGrab (on : Bool)
  /-- A search could not get to its starting corner. -/
  | searchStartBlocked
  /-- A search met an obstacle after discovering so many tiles. -/
  | searchBlocked (discovered : Nat)
  /-- A search ran out of moves after discovering so many tiles. -/
  | searchIncomplete (discovered : Nat)
  /-- A search came to its end after discovering so many tiles. -/
  | searchComplete (discovered : Nat)
  /-- There is no door near the robot. -/
  | noDoor
  | doorAlready (wide : Bool)
  | doorTurned (wide : Bool)
  /-- A laser went off the board. -/
  | laserEdge
  /-- A laser reached nothing. -/
  | laserNothing
  /-- A laser was aimed off the board. -/
  | laserOutside
  /-- A laser was aimed at a tile with nothing on it. -/
  | laserEmpty (target : Position)
  /-- A laser stunned an enemy. -/
  | laserEnemy (target : Position)
  | laserObstacle (target : Position)
  | lastLevel
  | skipped (level : Int)
  | noSuchLevel (level : Int) (count : Nat)
  | jumped (level : Int)
  | printed (text : String)
  | errorPrinted (text : String)
  | panicked (message : String)
  deriving DecidableEq, Repr

namespace Reply

def text : Reply → String
  | notAvailable => "Function not available"
  | blocked => "Unknown Object Blocking Function"
  | collision => "ENEMY COLLISION! Level reset and randomized."
  | alreadyComplete => "Level already complete."
  | moved => "Move executed"
  | grabbed true true => "Grabbed items and unknown tiles for credits!"
  | grabbed true false => "Grabbed items!"
  | grabbed false true => "Grabbed unknown tiles for credits."
  | grabbed false false => "Nothing to grab."
  | scanned true => "Scan complete."
  | scanned false => "Scan found nothing."
  | autoGrab true => "Auto-grab enabled - will grab items when moving onto squares with items"
  | autoGrab false => "Auto-grab disabled"
  | searchStartBlocked => "Search blocked by obstacle - cannot reach starting position"
  | searchBlocked n => s!"Lawnmower search blocked by obstacle! Discovered {n} squares."
  | searchIncomplete n => s!"Lawnmower search incomplete - too many moves! Discovered {n} squares."
  | searchComplete n => s!"Lawnmower search complete! Discovered {n} squares."
  | noDoor => "Robot must be standing on or next to a door to open/close it."
  | doorAlready true => "Door is already open."
  | doorAlready false => "Door is already closed."
  | doorTurned true => "Door opened successfully!"
  | doorTurned false => "Door closed successfully!"
  | laserEdge => "Laser fired but hit the edge of the grid."
  | laserNothing => "Laser fired but hit nothing within range."
  | laserOutside => "Target coordinates are outside the grid."
  | laserEmpty p => s!"Laser fired at {p.text} but hit empty space."
  | laserEnemy p => s!"Laser hit enemy at {p.text}! Enemy stunned for {stunTurns} turns."
  | laserObstacle p =>
    s!"Laser hit obstacle at {p.text}! Obstacle destroyed for {removalTurns} turns."
  | lastLevel => "Already at the last level!"
  | skipped n => s!"Skipped to level {n}!"
  | noSuchLevel n count => s!"Invalid level number {n}. Valid range: 1-{count}"
  | jumped n => s!"Jumped to level {n}!"
  | printed text => text
  | errorPrinted text => "Error: " ++ text
  | panicked message => "panicked: " ++ message

/-- The words that speak of an obstacle. -/
def obstacleWords : List String :=
  [blocked.text, "blocked by obstacle", "Search blocked"]

/-- Does a text speak of an obstacle? -/
def speaksOfObstacle (text : String) : Bool :=
  obstacleWords.any fun words => Text.occursIn words.toList text.toList

/-- Is the batch halted by this answer? -/
def haltsBatch (r : Reply) : Bool := speaksOfObstacle r.text

end Reply

end ScriptedRobot
