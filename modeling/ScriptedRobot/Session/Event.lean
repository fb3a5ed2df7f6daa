import ScriptedRobot.Board
import ScriptedRobot.Schema
import ScriptedRobot.Snapshot

/-!
# Events

What a batch reports about what happened, in the order in which it happened.
-/

namespace ScriptedRobot

/-- Something that happened in a batch. -/
inductive Event where
  | executed (kind : CommandKind) (answer : String)
  /-- A grab collected these items. -/
  | itemsCollected (names : List String)
  | enemyMoved (move : EnemyMove)
  /-- The robot and an enemy met, and the level was reset. -/
  | collision (level : Int)
  | levelComplete (level : Int) (name : String)
  | halted (answer : String)
  deriving DecidableEq, Repr

def Event.record : Event → EventRecord
  | executed kind answer => ⟨kind.tag, [("result", .str answer)]⟩
  | itemsCollected names => ⟨"ITEMS_COLLECTED", [("items", .strings names)]⟩
  | enemyMoved m =>
    ⟨"ENEMY_MOVE", [("enemy", .nat m.index), ("from", Schema.positionJson m.old),
      ("to", Schema.positionJson m.new)]⟩
  | collision level => ⟨"COLLISION", [("level", .int level)]⟩
  | levelComplete level name => ⟨"LEVEL_COMPLETE", [("level", .int level), ("name", .str name)]⟩
  | halted answer => ⟨"HALT", [("after", .str answer)]⟩

end ScriptedRobot
