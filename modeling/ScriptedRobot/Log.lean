/-!
# The log

What the game notes while it runs. Every entry has a severity, the channel it comes from and a text.
A step that may fail and notes things on its way is a `Noting` computation; what it has noted stays
noted when it fails.
-/

namespace ScriptedRobot.Log

/-- How serious an entry is. -/
inductive Severity where
  | debug
  | info
  | warning
  | error
  | critical
  deriving DecidableEq, Repr

def Severity.rank : Severity → Nat
  | debug => 10
  | info => 20
  | warning => 30
  | error => 40
  | critical => 50

def Severity.name : Severity → String
  | debug => "DEBUG"
  | info => "INFO"
  | warning => "WARNING"
  | error => "ERROR"
  | critical => "CRITICAL"

inductive Channel where
  | board
  | patterns
  | items
  | levels
  | session
  | replay
  deriving DecidableEq, Repr

def Channel.name : Channel → String
  | board => "robogrid.sim.grid"
  | patterns => "robogrid.sim.strategies"
  | items => "robogrid.sim.items"
  | levels => "robogrid.sim.level_loader"
  | session => "robogrid.sim.turn_loop"
  | replay => "robogrid.render.replay_reader"

structure Entry where
  severity : Severity
  channel : Channel
  text : String
  deriving DecidableEq, Repr

def Entry.line (e : Entry) : String := s!"{e.severity.name} {e.channel.name}: {e.text}"

/-- Steps that may fail with an `ε` and note things on their way. -/
abbrev Noting (ε : Type) := ExceptT ε (StateM (List Entry))

def note {ε : Type} (entries : List Entry) : Noting ε Unit := modify (· ++ entries)

/-- Runs a noting step: its outcome and its notes. -/
def Noting.outcome {ε α : Type} (step : Noting ε α) : Except ε α × List Entry := step.run.run []

end ScriptedRobot.Log
