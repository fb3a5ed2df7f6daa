import ScriptedRobot.Display
import ScriptedRobot.Robot
import ScriptedRobot.Snapshot

/-!
# The view of a board

One row of tiles for each row of the board. The robot and the enemies are always shown; of everything
else only what stands on a known tile.
-/

namespace ScriptedRobot

inductive Tile where
  | robot
  | enemy (stunned : Bool)
  | unknown
  /-- An obstacle that is removed for a while. -/
  | removed
  | blocker
  | door (isOpen : Bool)
  | item
  | floor
  deriving DecidableEq, Repr

namespace Tile

def symbol : Tile → Char
  | robot => 'R'
  | enemy _ => 'E'
  | unknown => '?'
  | removed => '~'
  | blocker => '#'
  | door false => '+'
  | door true => '/'
  | item => '*'
  | floor => '.'

def style : Tile → String
  | robot => "bold bright_cyan"
  | enemy false => "bold red"
  | enemy true => "grey50"
  | unknown => "grey35"
  | removed => "blue"
  | blocker => "bright_magenta"
  | door false => "yellow"
  | door true => "yellow3"
  | item => "bright_yellow"
  | floor => "grey70"

def styled (t : Tile) : StyledSymbol := ⟨t.symbol, t.style⟩

end Tile

namespace StateSnapshot

/-- The enemy that a tile shows: of several, the last one listed. -/
def enemyOn? (s : StateSnapshot) (p : Position) : Option EnemySnapshot :=
  s.enemies.reverse.find? fun e => e.position == p

def knownTile (s : StateSnapshot) (p : Position) : Tile :=
  if s.removed.contains p then .removed
  else if s.blockers.contains p then .blocker
  else if s.doors.contains p then .door (s.openDoors.contains p)
  else if s.items.any (·.position == p) then .item
  else .floor

def tile (s : StateSnapshot) (p : Position) : Tile :=
  if p = s.robot then .robot
  else
    match s.enemyOn? p with
    | some e => .enemy (e.stunnedTurns != 0)
    | none => if s.known.contains p then s.knownTile p else .unknown

def boardRows (s : StateSnapshot) : List (List Tile) :=
  (integers 0 (s.height - 1)).map fun y =>
    (integers 0 (s.width - 1)).map fun x => s.tile ⟨x, y⟩

end StateSnapshot

end ScriptedRobot
