import ScriptedRobot.Display.Drawing
import ScriptedRobot.Host
import Std.Time.DateTime.PlainDateTime
import Std.Time.DateTime.Timestamp

/-!
# Terminals

The host that a program started from a shell runs on: the files of the machine, its environment and its
clock, with the displays on standard output and the log on standard error. What it keeps is the least
rank of an entry that is written.
-/

namespace ScriptedRobot

/-- A program's access to the machine it runs on. -/
abbrev Terminal := StateT Nat IO

namespace Terminal

/-- The system's number for a failure because a file was needed and a directory is there. -/
def directoryCode : UInt32 := 21

/-- A failed operation at a path. -/
def faultAt (p : Path) : IO.Error → StorageFault
  | .noFileOrDirectory .. => .notFound p
  | .alreadyExists .. => .alreadyThere p
  | .inappropriateType _ code _ => if code = directoryCode then .isDirectory p else .notDirectory p
  | failure => .other (toString failure)

/-- Tries a file operation at a path. -/
def attempt {α : Type} (p : Path) (step : IO α) : Terminal (Except StorageFault α) := do
  if p.text.toList.contains '\x00' then return .error .nullInPath
  else
    try return .ok (← step)
    catch failure => return .error (faultAt p failure)

def kindOf (p : Path) : IO FileKind := do
  match (← ((← IO.currentDir) / p.text).metadata).type with
  | .dir => return .directory
  | _ => return .file

def namesIn (p : Path) : IO (List String) := do
  return (← ((← IO.currentDir) / p.text).readDir).toList.map (·.fileName)

def appendTo (p : Path) (bytes : ByteArray) : IO Unit := do
  let file ← IO.FS.Handle.mk p.text .append
  file.write bytes
  file.flush

/-- The current moment of universal time. -/
def currentMoment : IO Moment := do
  let instant ← Std.Time.Timestamp.now
  let t := Std.Time.PlainDateTime.ofWallTime (.ofSeconds instant.toSecondsSinceUnixEpoch)
  let moment := Moment.ofNumbers t.date.year.toInt t.date.month.val t.date.day.val t.time.hour.val
    t.time.minute.val t.time.second.val
  match moment with
  | .ok now => return now
  | .error fault => throw (IO.userError fault.message)

end Terminal

instance : Host Terminal where
  here := do return .ofString (← IO.currentDir).toString
  kind p := Terminal.attempt p (Terminal.kindOf p)
  bytes p := Terminal.attempt p (IO.FS.readBinFile p.text)
  append p bytes := Terminal.attempt p (Terminal.appendTo p bytes)
  names p := Terminal.attempt p (Terminal.namesIn p)
  makeDirectory p := Terminal.attempt p (IO.FS.createDir p.text)
  setting? name := IO.getEnv name
  now := Terminal.currentMoment
  print d := d.drawing.forM fun line => IO.println line
  sleep duration := IO.sleep duration.toNat.toUInt32
  note e := do if e.severity.rank ≥ (← get) then IO.eprintln e.line
  listen := set

end ScriptedRobot
