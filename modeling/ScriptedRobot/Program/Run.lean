import ScriptedRobot.Display.TurnView
import ScriptedRobot.Program.Settings
import ScriptedRobot.Session.View

/-!
# Runs

A run plays script files one after the other, each as one batch, and logs what every batch led to. The
files that levels refer to are read anew before each batch.
-/

namespace ScriptedRobot

structure Opening where
  levels : Choice Path := .absent
  level : Choice Int := .absent
  seed : Choice Int := .absent
  /-- The seed for the places that levels leave to chance. -/
  levelSeed : Option Int := none

/-- A session as programs run it. -/
abbrev Game := Session Random.Twister

namespace Program

/-- The files that a level refers to. -/
def resourcesOf (root : Path) (spec : LevelSpec) : List Path :=
  let items := (spec.items.filterMap (·.file)).filter (· ≠ "")
  let patterns := (spec.enemies.filterMap (·.pattern)).filterMap PatternRegistry.filePath?
  (items.map Path.ofString ++ patterns).map (resourcePath (some root))

/-- A loader that knows what some paths lead to. -/
def loaderOf (entries : List (Path × Except ReadFailure String)) : Loader := fun p =>
  (entries.lookup p).getD (.error (.unavailable p.text))

/-- What a run knows when it starts. -/
def header (folder : Path) (level : Int) (levelName : String) (scripts : List Path) :
    RunLog.Record :=
  .header (.obj
    [("run_id", .str folder.name), ("created_at", .str folder.name), ("level", .int level),
     ("level_name", .str levelName), ("scripts", .strings (scripts.map Path.text))])

variable {m : Type → Type} [Monad m] [Host m]

/-- Reads the files that levels refer to. -/
def readResources (root : Path) (levels : List LevelSpec) : m Loader := do
  let paths := (levels.flatMap (resourcesOf root)).eraseDups
  let entries ← paths.mapM fun p => do
    return (p, (← Storage.text p).mapError TextFault.asResource)
  return loaderOf entries

/-- Loads the levels of a folder. -/
def loadLevels (folder : Path) (givenSeed : Option Int) : Program m (List LevelSpec) := do
  let n ← levelSeed givenSeed
  let (outcome, notes) ← LevelFolder.load folder (Random.Twister.ofSeed n)
  noteAll notes
  attempt .levels outcome

/-- Starts a session on the level chosen. A campaign without levels is complained about before a seed
that is left blank. -/
def startSession (o : Opening) : Program m Game := do
  let folder ← levelsFolder o.levels
  let levels ← loadLevels folder o.levelSeed
  let number ← levelNumber o.level
  if number < 1 ∨ (max levels.length 1 : Nat) < number then
    throw (.levelNumber number levels.length)
  let seed ← sessionSeed o.seed
  let root := (← attempt .storage (← Storage.resolved folder)).parent
  if levels.isEmpty then throw (.start .noLevels)
  let some n := seed | throw (.blank .seed)
  let loader ← readResources root levels
  let (outcome, notes) :=
    Session.start ⟨levels, loader, some root⟩ (Random.Twister.ofSeed n) (number - 1)
  noteAll notes
  return { ← attempt .start outcome with log := [] }

/-- A session whose resources are read anew. -/
def withFreshResources (s : Game) : m Game := do
  match s.campaign.root with
  | some root => return s.withLoader (← readResources root s.campaign.levels)
  | none => return s

def runScript (s : Game) (code : String) : Program m Game := do
  let (s, outcome) := (← withFreshResources s).runScript code
  noteAll s.log
  let _ ← attempt .batch outcome
  return { s with log := [] }

def showTurn (p : TurnPayload) : Program m Unit := do
  Host.print (← attempt .display (p.display TurnPayload.defaultEvents))

def millisecondsPerSecond : Nat := 1000

/-- The milliseconds to wait when time is slowed for some milliseconds. The wait is measured in seconds,
as a floating-point number, which has to be finite. -/
def waitFor (duration : Int) : Except Failure Int :=
  let seconds := Binary64.ofRatio duration millisecondsPerSecond
  match (seconds.times? millisecondsPerSecond).bind Binary64.nearest? with
  | some milliseconds => .ok milliseconds
  | none => .error .longWait

def waitIfSlow (s : Game) : Program m Unit := do
  match s.play.timeSlow with
  | some duration => Host.sleep (← attempt id (waitFor duration))
  | none => return ()

/-- Runs scripts as one batch each; logs and, if wanted, shows what they lead to. -/
def runBatches (log : Path) (watched : Bool) : List String → Game → Program m Unit
  | [], _ => return ()
  | code :: rest, s => do
    let s ← runScript s code
    attempt .record (← RunLog.add log (.turn s.payload))
    if watched then
      showTurn s.payload
      waitIfSlow s
    runBatches log watched rest s

/-- Runs script files, and gives the folder of the run. -/
def runFiles (runs : Choice Path) (scripts : List Path) (o : Opening) (watched : Bool) :
    Program m Path := do
  let s ← startSession o
  let number ← levelNumber o.level
  let now ← Host.now
  let folder ← attempt .storage (← RunLog.makeFolder (← runsFolder (.blank .runs) runs) now)
  let log := RunLog.inFolder folder
  attempt .record (← RunLog.add log (header folder number s.spec.name scripts))
  let sources ← scripts.mapM fun p => do attempt .script (← Storage.text p)
  runBatches log watched sources s
  return folder

/-- Shows the turns among some numbered lines of a log. -/
def replayLines (log : Path) : List (RunLog.Line × Nat) → Program m Unit
  | [] => return ()
  | (line, number) :: rest => do
    let payload ← attempt .log (RunLog.turnIn line)
    noteAll (RunLog.skipNote? log.text line number).toList
    payload.toList.forM showTurn
    replayLines log rest

def replay (log : Path) : Program m Unit := do
  replayLines log ((← attempt .storage (← RunLog.lines log)).zipIdx 1)

end Program

end ScriptedRobot
