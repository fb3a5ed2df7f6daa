import ScriptedRobot.Schema
import ScriptedRobot.Snapshot

/-!
# Snapshots as records

Events, snapshots and turns, read and written.
-/

namespace ScriptedRobot.Schema

def event : Reader EventRecord :=
  record ["kind", "payload"] fun fs =>
    EventRecord.mk <$> required fs "kind" string <*> optional fs "payload" dictionary []

def enemySnapshot : Reader EnemySnapshot :=
  record ["index", "position", "pattern", "stunned_turns", "scratch"] fun fs =>
    EnemySnapshot.mk
    <$> required fs "index" integer
    <*> required fs "position" position
    <*> required fs "pattern" string
    <*> optional fs "stunned_turns" integer 0
    <*> optional fs "scratch" dictionary []

def itemSnapshot : Reader ItemSnapshot :=
  record ["name", "position"] fun fs =>
    ItemSnapshot.mk <$> required fs "name" string <*> required fs "position" position

def stateKeys : List String :=
  ["level_index", "level_name", "width", "height", "robot_position", "known", "blockers", "doors",
   "open_doors", "removed_obstacles", "enemies", "items", "inventory", "credits", "turns",
   "max_turns", "auto_grab_enabled", "finished", "available_functions"]

def stateSnapshot : Reader StateSnapshot :=
  record stateKeys fun fs =>
    let positions (key : String) := optional fs key (list position) []
    StateSnapshot.mk
    <$> required fs "level_index" integer
    <*> required fs "level_name" string
    <*> required fs "width" integer
    <*> required fs "height" integer
    <*> required fs "robot_position" position
    <*> positions "known"
    <*> positions "blockers"
    <*> positions "doors"
    <*> positions "open_doors"
    <*> positions "removed_obstacles"
    <*> optional fs "enemies" (list enemySnapshot) []
    <*> optional fs "items" (list itemSnapshot) []
    <*> optional fs "inventory" (list string) []
    <*> optional fs "credits" integer 0
    <*> optional fs "turns" integer 0
    <*> optional fs "max_turns" integer 0
    <*> optional fs "auto_grab_enabled" boolean false
    <*> optional fs "finished" boolean false
    <*> optional fs "available_functions" (list string) []

/-- What one batch led to. -/
def turnPayload : Reader TurnPayload :=
  record ["turn", "execution_result", "state", "events"] fun fs =>
    TurnPayload.mk
    <$> required fs "turn" integer
    <*> required fs "execution_result" string
    <*> required fs "state" stateSnapshot
    <*> optional fs "events" (nullable (list event)) none

/-! ## Writing -/

def eventJson (e : EventRecord) : Json :=
  .obj [("kind", .str e.kind), ("payload", .obj e.payload)]

def enemySnapshotJson (e : EnemySnapshot) : Json :=
  .obj [("index", .int e.index), ("position", positionJson e.position), ("pattern", .str e.pattern),
    ("stunned_turns", .int e.stunnedTurns), ("scratch", .obj e.scratch)]

def itemSnapshotJson (i : ItemSnapshot) : Json :=
  .obj [("name", .str i.name), ("position", positionJson i.position)]

def stateSnapshotJson (s : StateSnapshot) : Json :=
  .obj [("level_index", .int s.levelIndex), ("level_name", .str s.levelName),
    ("width", .int s.width), ("height", .int s.height),
    ("robot_position", positionJson s.robot), ("known", positionsJson s.known),
    ("blockers", positionsJson s.blockers), ("doors", positionsJson s.doors),
    ("open_doors", positionsJson s.openDoors), ("removed_obstacles", positionsJson s.removed),
    ("enemies", .arr (s.enemies.map enemySnapshotJson)),
    ("items", .arr (s.items.map itemSnapshotJson)), ("inventory", .strings s.inventory),
    ("credits", .int s.credits), ("turns", .int s.turns), ("max_turns", .int s.maxTurns),
    ("auto_grab_enabled", .bool s.autoGrab), ("finished", .bool s.finished),
    ("available_functions", .strings s.functions)]

def turnPayloadJson (p : TurnPayload) : Json :=
  .obj [("turn", .int p.turn), ("execution_result", .str p.result),
    ("state", stateSnapshotJson p.state),
    ("events", Json.orNull (fun events => .arr (events.map eventJson)) p.events)]

end ScriptedRobot.Schema
