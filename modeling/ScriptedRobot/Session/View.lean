import ScriptedRobot.Session
import ScriptedRobot.Strategy.Scratch

/-!
# What a session shows

The settled state of a session as a snapshot, with every set listed in order, and the payload of its
last batch.
-/

namespace ScriptedRobot.Session

variable {σ : Type}

def sortedPositions (ps : List Position) : List Position := ps.mergeSort Position.before

def sortedTexts (ts : List String) : List String := ts.mergeSort fun a b => decide (a ≤ b)

def enemySnapshot (s : Session σ) (e : Enemy) (index : Nat) : EnemySnapshot :=
  { index := index
    position := e.position
    pattern := e.strategy.tag
    stunnedTurns := (s.play.stunned.left? index).getD 0
    scratch := e.strategy.scratch }

/-- The state of a session as it is shown. -/
def snapshot (s : Session σ) : StateSnapshot :=
  let play := s.play
  let board := play.board
  { levelIndex := s.level
    levelName := s.spec.name
    width := board.width
    height := board.height
    robot := play.robot.position
    known := sortedPositions board.known.toList
    blockers := sortedPositions board.blockers.toList
    doors := sortedPositions board.doors.toList
    openDoors := sortedPositions board.openDoors.toList
    removed := sortedPositions play.removed.keys
    enemies := board.enemies.zipIdx.map fun (e, i) => s.enemySnapshot e i
    items := play.items.active.map fun i => ⟨i.name, i.position⟩
    inventory := sortedTexts play.robot.inventory.toList
    credits := s.credits
    turns := play.turns
    maxTurns := s.spec.maxTurns
    autoGrab := play.robot.autoGrab
    finished := play.finished
    functions := play.robot.visibleFunctions s.level }

def payload (s : Session σ) : TurnPayload :=
  { turn := s.batches
    result := s.lastResult
    state := s.snapshot
    events := if s.events.isEmpty then none else some (s.events.map Event.record) }

end ScriptedRobot.Session
