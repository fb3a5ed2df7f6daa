import ScriptedRobot.Program.CommandLine
import ScriptedRobot.Terminal

/-!
# The program

The command line on a terminal. The exit code is zero if the program has done what it was asked for,
two if the command line makes no sense, and one otherwise.
-/

namespace ScriptedRobot.Terminal

def usage : List String :=
  ["usage: robogrid [OPTION]... [SCRIPT]...",
   "Run robot scripts on grid levels, one batch for each script.",
   "",
   "  -h, --help            show this text",
   "  --level N             the level to start on, counted from one",
   "  --levels-dir DIR      the folder of the levels (else ROBOGRID_LEVELS_DIR or ./levels)",
   "  --seed N              the seed of the session (else ROBOGRID_SEED)",
   "  --replay DIR          replay the run in a folder",
   "  --latest              replay the newest run",
   "  --replay-dir DIR      the folder of the runs (else ./replay)",
   "  --list-levels         list the levels",
   "  --list-functions      list the calls that the level allows",
   "  --log-level NAME      the least severity that is logged (else ROBOGRID_LOG_LEVEL or WARNING)"]

/-- Says how a program has ended, and gives its exit code. -/
def conclude : Exit → IO UInt32
  | .done => return 0
  | .help => do
    usage.forM IO.println
    return 0
  | .misuse => do
    usage.forM IO.eprintln
    return 2
  | .message text => do
    IO.eprintln text
    return 1
  | .failed failure => do
    IO.eprintln failure.message
    return 1

/-- Carries out a command line, and gives the exit code. -/
def execute (args : List String) : IO UInt32 := do
  let (exit, _) ← (Program.execute args : Terminal Exit).run Log.Severity.warning.rank
  conclude exit

end ScriptedRobot.Terminal

def main (args : List String) : IO UInt32 := ScriptedRobot.Terminal.execute args
