import ScriptedRobot.Display
import ScriptedRobot.Log
import ScriptedRobot.Moment
import ScriptedRobot.Storage.Disk

/-!
# Hosts

A host is what a program runs on: besides storage it has settings, a clock, a screen and a log. `World`
is a host as a value, so what a program does can be looked at afterwards.
-/

namespace ScriptedRobot

/-- What a program runs on. -/
class Host (m : Type → Type) extends Storage m where
  setting? : String → m (Option String)
  now : m Moment
  print : Display → m Unit
  /-- Waits for some milliseconds. -/
  sleep : Int → m Unit
  note : Log.Entry → m Unit
  /-- From now on only entries of at least this rank are written. -/
  listen : Nat → m Unit

/-- A host as a value, with what has been put out so far. -/
structure World where
  disk : Disk
  settings : List (String × String) := []
  now : Moment
  printed : List Display := []
  slept : List Int := []
  /-- The least rank of an entry that is written. -/
  threshold : Nat := 0
  /-- All entries so far, whatever their rank. -/
  noted : List Log.Entry := []
  /-- The log: the entries that were written. -/
  written : List Log.Entry := []

namespace World

def onDisk {α : Type} (step : StateM Disk α) : StateM World α := fun w =>
  let (a, disk) := step.run w.disk
  (a, { w with disk := disk })

/-- Takes note of an entry, and writes it to the log if its rank is high enough. -/
def note (w : World) (e : Log.Entry) : World :=
  let written := if e.severity.rank ≥ w.threshold then w.written ++ [e] else w.written
  { w with noted := w.noted ++ [e], written := written }

end World

instance : Host (StateM World) where
  here := World.onDisk Storage.here
  kind p := World.onDisk (Storage.kind p)
  bytes p := World.onDisk (Storage.bytes p)
  append p bytes := World.onDisk (Storage.append p bytes)
  names p := World.onDisk (Storage.names p)
  makeDirectory p := World.onDisk (Storage.makeDirectory p)
  setting? name w := (w.settings.lookup name, w)
  now w := (w.now, w)
  print d w := ((), { w with printed := w.printed ++ [d] })
  sleep duration w := ((), { w with slept := w.slept ++ [duration] })
  note e w := ((), w.note e)
  listen rank w := ((), { w with threshold := rank })

end ScriptedRobot
