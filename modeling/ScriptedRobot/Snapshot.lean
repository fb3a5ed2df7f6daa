import ScriptedRobot.Json
import ScriptedRobot.Position

/-!
# Snapshots

What a session shows of itself after a batch: the settled state and the events on the way to it.
Snapshots are shown to players and written to run logs, and are read back from there.
-/

namespace ScriptedRobot

/-- Something that happened, as it is recorded. -/
structure EventRecord where
  kind : String
  payload : List (String × Json) := []

structure EnemySnapshot where
  index : Int
  position : Position
  pattern : String
  stunnedTurns : Int := 0
  scratch : List (String × Json) := []

structure ItemSnapshot where
  name : String
  position : Position
  deriving DecidableEq, Repr

/-- A settled state as it is shown. -/
structure StateSnapshot where
  levelIndex : Int
  levelName : String
  width : Int
  height : Int
  robot : Position
  known : List Position := []
  blockers : List Position := []
  doors : List Position := []
  openDoors : List Position := []
  removed : List Position := []
  enemies : List EnemySnapshot := []
  items : List ItemSnapshot := []
  inventory : List String := []
  credits : Int := 0
  turns : Int := 0
  /-- The turns that may be spent; zero sets no limit. -/
  maxTurns : Int := 0
  autoGrab : Bool := false
  finished : Bool := false
  functions : List String := []

/-- What one batch led to. -/
structure TurnPayload where
  turn : Int
  result : String
  state : StateSnapshot
  events : Option (List EventRecord) := none

/-- The values in a turn that can be anything: the circumstances of its events, and what the strategies
of the enemies remember. -/
def TurnPayload.freeValues (p : TurnPayload) : List Json :=
  (p.events.getD []).flatMap (fun e => e.payload.map (·.2))
    ++ p.state.enemies.flatMap fun e => e.scratch.map (·.2)

end ScriptedRobot
