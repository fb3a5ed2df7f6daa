import ScriptedRobot.Host
import ScriptedRobot.Level.Folder
import ScriptedRobot.Program.Options
import ScriptedRobot.Random.Twister
import ScriptedRobot.RunLog.Stored
import ScriptedRobot.Session.Batch
import ScriptedRobot.Text.Uppercase

/-!
# Settings and failures

What is not given on the command line comes from the environment, and what is not there either has a
default. An empty setting counts as absent. The folder of the levels and the least severity may also be
left blank, which is as good as absent; any other option needs its value if it is there.
-/

namespace ScriptedRobot

inductive Failure where
  | seed (fault : Text.NumeralFault)
  | severity (name : String)
  | levels (fault : LevelFileFault)
  | levelNumber (number : Int) (count : Nat)
  | start (failure : StartFailure)
  /-- The value of an option is needed, but left blank. -/
  | blank (option : Switch)
  /-- The newest run is asked for, but the folder of the runs is left blank. -/
  | nowhereToSearch
  | storage (fault : StorageFault)
  | record (fault : RunLog.WriteFault)
  | display (fault : Text.NumeralFault)
  /-- Time is slowed for too long to wait. -/
  | longWait
  | script (fault : TextFault)
  | batch (failure : BatchFailure)
  | log (fault : RunLog.Fault)
  deriving DecidableEq, Repr

namespace Failure

def entryMessage : EntryFailure → String
  | .noSuchLevel => "there is no such level"
  | .resource (.unavailable reason) => reason
  | .resource .undecodable => TextFault.message .undecodable
  | .resource .nullInPath => StorageFault.message .nullInPath
  | .resource (.broken reason) => reason

def message : Failure → String
  | seed fault => fault.message
  | severity name => "Unknown level: " ++ Text.quotedString name
  | levels fault => fault.message
  | levelNumber number count => s!"Level {number} out of range 1-{count}"
  | start .noLevels => "no levels"
  | start (.entry failure) => entryMessage failure
  | blank option => s!"the value of {option.name} is left blank"
  | nowhereToSearch => "there is no folder to look for runs in"
  | storage fault => fault.message
  | record fault => fault.message
  | display fault => fault.message
  | longWait => "the time to wait is too long"
  | script fault => fault.message
  | batch (.numeral fault) => fault.message
  | batch (.entry failure) => entryMessage failure
  | log (.numeral fault) => fault.message
  | log .tooDeep => "a line of the log holds values too deep inside one another"
  | log .notRecord => "a line of the log is no record"
  | log (.invalid issues) => s!"{issues.length} invalid value(s) in a turn of the log"
  | log .undecodable => TextFault.message .undecodable

end Failure

/-- A program that may fail. -/
abbrev Program (m : Type → Type) := ExceptT Failure m

section Lifting

variable {m : Type → Type} [Monad m] [Host m]

instance : Host (Program m) where
  here := ExceptT.lift Storage.here
  kind p := ExceptT.lift (Storage.kind p)
  bytes p := ExceptT.lift (Storage.bytes p)
  append p bytes := ExceptT.lift (Storage.append p bytes)
  names p := ExceptT.lift (Storage.names p)
  makeDirectory p := ExceptT.lift (Storage.makeDirectory p)
  setting? name := ExceptT.lift (Host.setting? name)
  now := ExceptT.lift Host.now
  print d := ExceptT.lift (Host.print d)
  sleep duration := ExceptT.lift (Host.sleep duration)
  note e := ExceptT.lift (Host.note e)
  listen rank := ExceptT.lift (Host.listen rank)

end Lifting

namespace Program

variable {m : Type → Type} [Monad m] [Host m]

/-- Goes on with an outcome, which may be a failure of its own kind. -/
def attempt {ε α : Type} (asFailure : ε → Failure) (outcome : Except ε α) : Program m α :=
  ExceptT.mk (pure (outcome.mapError asFailure))

def noteAll (entries : List Log.Entry) : m Unit := entries.forM Host.note

/-- The value of a setting that is not empty. -/
def setting? (name : String) : m (Option String) := do
  return (← Host.setting? name).filter (· ≠ "")

def levelsFolder (given : Choice Path) : m Path := do
  match given with
  | .value folder => return folder
  | .absent | .blank => return .ofString ((← setting? "ROBOGRID_LEVELS_DIR").getD "levels")

/-- The name of the least severity that is written to the log. -/
def severityName (given : Choice String) : m String := do
  match given.toOption.filter (· ≠ "") with
  | some name => return inCapitals name
  | none => return inCapitals ((← setting? "ROBOGRID_LOG_LEVEL").getD "WARNING")
where
  inCapitals (name : String) : String := String.ofList (Text.uppercase name.toList)

def severityNames : List (String × Nat) :=
  [("CRITICAL", Log.Severity.critical.rank), ("FATAL", Log.Severity.critical.rank),
   ("ERROR", Log.Severity.error.rank), ("WARN", Log.Severity.warning.rank),
   ("WARNING", Log.Severity.warning.rank), ("INFO", Log.Severity.info.rank),
   ("DEBUG", Log.Severity.debug.rank), ("NOTSET", 0)]

/-- Listens to entries from the named severity on. -/
def listenFrom (given : Choice String) : Program m Unit := do
  let name ← severityName given
  match severityNames.lookup name with
  | some rank => Host.listen rank
  | none => throw (.severity name)

/-- The seed for everything unless another one is given. -/
def defaultSeed : Int := 0xC0FFEE

/-- A seed: the one given, or the one of a setting. -/
def seed (given : Option Int) (name : String) : Program m Int := do
  match given with
  | some n => return n
  | none =>
    match ← setting? name with
    | none => return defaultSeed
    | some text =>
      match Text.Numeral.readAnyBase text.toList with
      | .ok n => return n
      | .error fault => throw (.seed fault)

def levelSeed (given : Option Int) : Program m Int := seed given "ROBOGRID_LEVEL_SEED"

/-- The seed of a session, unless it is left blank. -/
def sessionSeed : Choice Int → Program m (Option Int)
  | .absent => some <$> seed none "ROBOGRID_SEED"
  | .blank => return none
  | .value n => return some n

/-- The number of the first level, unless the option says otherwise. -/
def defaultLevel : Int := 1

/-- The number of the level to start on. -/
def levelNumber : Choice Int → Program m Int
  | .absent => return defaultLevel
  | .blank => throw (.blank .level)
  | .value n => return n

/-- Where the folders of runs are unless the option says otherwise. -/
def defaultRuns : Path := ⟨"", ["replay"]⟩

/-- Where the folders of runs are; `failure` is for when that is left blank. -/
def runsFolder (failure : Failure) : Choice Path → Program m Path
  | .absent => return defaultRuns
  | .blank => throw failure
  | .value folder => return folder

end Program

end ScriptedRobot
