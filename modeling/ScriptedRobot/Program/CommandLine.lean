import ScriptedRobot.Program.Options
import ScriptedRobot.Program.Run

/-!
# The command line

What the arguments ask for is carried out: listing levels or calls, replaying a run, or running scripts.
-/

namespace ScriptedRobot

inductive Exit where
  | done
  | help
  | misuse
  | message (text : String)
  | failed (failure : Failure)
  deriving DecidableEq, Repr

/-- How a program ends whose command line is not carried out. -/
def Exit.ofFault : OptionsFault → Exit
  | .help => help
  | .misuse => misuse

namespace Program

/-- The goal of a level as it is listed. -/
def goal (l : LevelSpec) : String :=
  match l.texts.completionFlag with
  | none | some "" => "explore"
  | some flag => flag

def levelTable (levels : List LevelSpec) : Table :=
  { title := some "Levels"
    hasHeader := true
    header := ["#", "Name", "Size", "Goal"]
    rows := (levels.zipIdx 1).map fun (l, number) =>
      [toString number, l.name, s!"{l.width}x{l.height}", goal l] }

variable {m : Type → Type} [Monad m] [Host m]

def listLevels (o : Options) : Program m Exit := do
  let levels ← loadLevels (← levelsFolder o.levels) none
  Host.print (.table (levelTable levels))
  Host.print (.line s!"{CommandKind.all.length} script functions known.")
  return .done

def opening (o : Options) : Opening := { levels := o.levels, level := o.level, seed := o.seed }

/-- Lists what to do on a level and the calls that it allows. -/
def listFunctions (o : Options) : Program m Exit := do
  let s ← startSession (opening o)
  Host.print (.line s.instructions)
  s.snapshot.functions.forM fun signature => Host.print (.line ("  " ++ signature))
  return .done

def replayFolder (folder : Path) : Program m Exit := do
  let log := RunLog.inFolder folder
  if ← attempt .storage (← Storage.isThere log) then
    replay log
    return .done
  else return .message s!"No run log found in {folder}."

def replayLatest (o : Options) : Program m Exit := do
  let runs ← runsFolder .nowhereToSearch o.runs
  match ← attempt .storage (← RunLog.folders runs) with
  | [] => return .message "No run folder found. Run a script first."
  | folder :: _ => replayFolder folder

def runScripts (o : Options) : Program m Exit := do
  let folder ← runFiles o.runs o.scripts (opening o) true
  Host.print (.line s!"Run saved to {folder}")
  return .done

def carryOut (o : Options) : Program m Exit := do
  listenFrom o.severity
  if o.listLevels then listLevels o
  else if o.listFunctions then listFunctions o
  else if o.latest then replayLatest o
  else
    match o.replay with
    | .value folder => replayFolder folder
    | .blank => throw (.blank .replay)
    | .absent => if o.scripts.isEmpty then return .misuse else runScripts o

def execute (args : List String) : m Exit := do
  match Options.ofArguments args with
  | .error fault => return .ofFault fault
  | .ok o =>
    match ← (carryOut o : Program m Exit).run with
    | .ok exit => return exit
    | .error failure => return .failed failure

end Program

end ScriptedRobot
