import ScriptedRobot.Path
import ScriptedRobot.Resource
import ScriptedRobot.Text.Line
import ScriptedRobot.Text.Quoted

/-!
# Storage

What the program needs from a file system. `Storage` lists the operations; the rest is made of them.
Text is stored in UTF-8, and whatever ends its lines is read as a line feed.
-/

namespace ScriptedRobot

/-- Why a file operation fails. -/
inductive StorageFault where
  /-- There is nothing at the path. -/
  | notFound (path : Path)
  | isDirectory (path : Path)
  | notDirectory (path : Path)
  /-- There is already something at the path. -/
  | alreadyThere (path : Path)
  | tooLong (path : Path)
  | nullInPath
  /-- Something else that the system reports. -/
  | other (text : String)
  deriving DecidableEq, Repr

namespace StorageFault

/-- The number and the words of a fault of the system at a path. -/
def systemMessage (number : Nat) (words : String) (path : Path) : String :=
  s!"[Errno {number}] {words}: " ++ Text.quotedString path.text

def message : StorageFault → String
  | notFound path => systemMessage 2 "No such file or directory" path
  | alreadyThere path => systemMessage 17 "File exists" path
  | notDirectory path => systemMessage 20 "Not a directory" path
  | isDirectory path => systemMessage 21 "Is a directory" path
  | tooLong path => systemMessage 36 "File name too long" path
  | nullInPath => "embedded null byte"
  | other text => text

/-- Does the fault only mean that nothing is at the path? -/
def meansAbsent : StorageFault → Bool
  | notFound _ | notDirectory _ | nullInPath => true
  | _ => false

end StorageFault

/-- What can be at a path. -/
inductive FileKind where
  | file
  | directory
  deriving DecidableEq, Repr

class Storage (m : Type → Type) where
  here : m Path
  kind : Path → m (Except StorageFault FileKind)
  bytes : Path → m (Except StorageFault ByteArray)
  /-- Adds bytes at the end of a file, which is made if there is none. -/
  append : Path → ByteArray → m (Except StorageFault Unit)
  /-- The names in a directory, in any order. -/
  names : Path → m (Except StorageFault (List String))
  /-- Makes a directory in one that is there. -/
  makeDirectory : Path → m (Except StorageFault Unit)

/-- The text of some bytes, if they are UTF-8. -/
def textOfBytes? (bytes : ByteArray) : Option String :=
  (String.fromUTF8? bytes).map fun s => String.ofList (Text.unifyNewlines s.toList)

/-- Why a text cannot be had from a file. -/
inductive TextFault where
  | storage (fault : StorageFault)
  | undecodable
  deriving DecidableEq, Repr

namespace TextFault

def message : TextFault → String
  | storage fault => fault.message
  | undecodable => "the file is not UTF-8"

/-- The fault as one of reading a resource. -/
def asResource : TextFault → ReadFailure
  | storage .nullInPath => .nullInPath
  | storage fault => .unavailable fault.message
  | undecodable => .undecodable

end TextFault

namespace Storage

variable {m : Type → Type} [Monad m] [Storage m]

/-- What is at a path, if anything is. -/
def kind? (p : Path) : m (Except StorageFault (Option FileKind)) := do
  match ← kind p with
  | .ok k => return .ok (some k)
  | .error fault => return if fault.meansAbsent then .ok none else .error fault

def isDirectory (p : Path) : m (Except StorageFault Bool) := do
  return (← kind? p).map (· == some .directory)

def isThere (p : Path) : m (Except StorageFault Bool) := do
  return (← kind? p).map Option.isSome

/-- Where a path leads to from the current directory. -/
def resolved (p : Path) : m (Except StorageFault Path) := do
  if p.text.toList.contains '\x00' then return .error .nullInPath
  else return .ok (p.resolved (← here))

/-- The text of a file. -/
def text (p : Path) : m (Except TextFault String) := do
  match ← bytes p with
  | .error fault => return .error (.storage fault)
  | .ok bytes => return (textOfBytes? bytes).elim (.error .undecodable) .ok

/-- Makes a directory unless it is there. A path that is taken by a file stays a failure. -/
def ensureDirectory (p : Path) : m (Except StorageFault Unit) := do
  match ← makeDirectory p with
  | .ok _ => return .ok ()
  | .error (.notFound q) => return .error (.notFound q)
  | .error fault =>
    match ← isDirectory p with
    | .ok true => return .ok ()
    | .ok false => return .error fault
    | .error more => return .error more

/-- Makes a directory and those above it, as far as they are missing. `depth` bounds how many are
looked at. -/
def ensureDirectories : Nat → Path → m (Except StorageFault Unit)
  | 0, p => ensureDirectory p
  | depth + 1, p => do
    match ← ensureDirectory p with
    | .error (.notFound q) =>
      if p.names.isEmpty then return .error (.notFound q)
      else
        match ← ensureDirectories depth p.parent with
        | .error fault => return .error fault
        | .ok _ => ensureDirectory p
    | outcome => return outcome

/-- Makes a directory and all that are missing above it. -/
def makeDirectories (p : Path) : m (Except StorageFault Unit) := ensureDirectories p.names.length p

end Storage

end ScriptedRobot
