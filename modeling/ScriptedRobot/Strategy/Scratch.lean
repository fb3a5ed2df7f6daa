import ScriptedRobot.Schema
import ScriptedRobot.Strategy

/-!
# What a strategy remembers, as a record

Snapshots show what a strategy remembers under the names of its parts.
-/

namespace ScriptedRobot.Strategy

/-- The parts that a strategy remembers. -/
def scratch : Strategy → List (String × Json)
  | idle | random => []
  | bounce axis positive =>
    [("axis", Schema.positionJson axis), ("moving_positive", .bool positive)]
  | circular turn => [("direction_index", .int turn)]
  | spiral turn leg walked =>
    [("direction_index", .int turn), ("steps_in_direction", .int leg), ("current_step", .int walked)]
  | chase chasing => [("is_chasing", .bool chasing)]
  | guard turn postX postY =>
    [("direction_index", .int turn), ("center_x", Json.orNull Json.int postX),
     ("center_y", Json.orNull Json.int postY)]

end ScriptedRobot.Strategy
