import ScriptedRobot.Moment
import ScriptedRobot.RunLog
import ScriptedRobot.Storage

/-!
# Run logs in storage

Every run has a folder, named for the second in which it started, and its log is a file in there.
Records are only ever added at the end.

A log is read block by block, so what stands in the blocks before one that is not UTF-8 is still read.
-/

namespace ScriptedRobot.RunLog

/-! ## From bytes to lines -/

def linesOfText (text : List Char) : List Line := (Text.fileLines (Text.unifyNewlines text)).map readLine

/-- How many bytes are read at a time. -/
def blockSize : Nat := 8192

/-- Bytes that complete the start of a character, whichever start it is. -/
def completions : List (List UInt8) :=
  [0x80, 0x90, 0xA0].flatMap fun b => [[b], [b, 0x80], [b, 0x80, 0x80]]

/-- Are these the first bytes of a character that goes on? -/
def startsCharacter (bytes : List UInt8) : Bool :=
  completions.any fun more =>
    match String.fromUTF8? ⟨(bytes ++ more).toArray⟩ with
    | some s => s.length == 1
    | none => false

/-- The text of some bytes that may end inside a character. -/
def textSoFar? (bytes : ByteArray) : Option String :=
  -- A character has at most four bytes, so at most three of an unfinished one are there.
  [0, 1, 2, 3].findSome? fun missing =>
    let whole := bytes.size - missing
    if missing = 0 || startsCharacter (bytes.extract whole bytes.size).toList then
      String.fromUTF8? (bytes.extract 0 whole)
    else none

/-- The text of the blocks before the first one that is not UTF-8. A character whose end is missing
does not count against its block. -/
def readableText (bytes : ByteArray) : String :=
  let starts := (List.range (bytes.size / blockSize + 2)).map fun count =>
    textSoFar? (bytes.extract 0 (min (count * blockSize) bytes.size))
  ((starts.takeWhile Option.isSome).getLast?.join).getD ""

/-- The lines of a text that are known to be whole. A carriage return at the end may still be followed
by its line feed. -/
def wholeLines (text : List Char) : List Line :=
  let text := if text.getLast? = some '\r' then text.dropLast else text
  linesOfText ((Text.unifyNewlines text).reverse.dropWhile (· ≠ '\n')).reverse

def linesOfBytes (bytes : ByteArray) : List Line :=
  match String.fromUTF8? bytes with
  | some text => linesOfText text.toList
  | none => wholeLines (readableText bytes).toList ++ [.error .undecodable]

/-! ## Logs and folders -/

def fileName : String := "run.jsonl"

def inFolder (folder : Path) : Path := folder.child fileName

variable {m : Type → Type} [Monad m] [Storage m]

/-- Why a record is not added to a log. -/
inductive WriteFault where
  | storage (fault : StorageFault)
  | tooDeep
  | tooNested
  | numeral (fault : Text.NumeralFault)
  deriving DecidableEq, Repr

def WriteFault.message : WriteFault → String
  | storage fault => fault.message
  | tooDeep => "Maximum serialization depth exceeded"
  | tooNested => "maximum recursion depth exceeded while encoding a JSON object"
  | numeral fault => fault.message

/-- The line of a record, or why it cannot be written. -/
def Record.written (r : Record) : Except WriteFault String :=
  if r.isTooNested then .error .tooNested
  else if r.isWritable then .ok r.line
  else .error (.numeral .unwritable)

/-- Adds a record to a log. The folder and the log are made if they are missing. That a record cannot be
written only comes up then, and nothing is added. -/
def add (log : Path) (r : Record) : m (Except WriteFault Unit) := do
  -- Depth is looked at while the record is made into plain data, before the storage is touched; nesting
  -- and numerals only once the log is open.
  if r.isTooDeep then return .error .tooDeep
  match ← Storage.makeDirectories log.parent with
  | .error fault => return .error (.storage fault)
  | .ok _ =>
    match ← Storage.append log (r.written.toOption.getD "").toUTF8 with
    | .error fault => return .error (.storage fault)
    | .ok _ => return r.written.map fun _ => ()

/-- Makes the folder of a run that starts now. -/
def makeFolder (base : Path) (now : Moment) : m (Except StorageFault Path) := do
  let folder := base.child now.runName
  return (← Storage.makeDirectories folder).map fun _ => folder

/-- The names among some of a folder that have a log in them. -/
def namesWithLog (base : Path) : List String → m (Except StorageFault (List String))
  | [] => return .ok []
  | name :: rest => do
    match ← Storage.isThere (inFolder (base.child name)) with
    | .error fault => return .error fault
    | .ok isThere =>
      let names ← namesWithLog base rest
      return if isThere then names.map (name :: ·) else names

/-- Names from the last to the first. -/
def newestFirst (names : List String) : List String := names.mergeSort fun a b => decide (b ≤ a)

/-- The folders of runs that have a log, the newest first. -/
def folders (base : Path) : m (Except StorageFault (List Path)) := do
  match ← Storage.isDirectory base with
  | .error fault => return .error fault
  | .ok false => return .ok []
  | .ok true =>
    match ← Storage.names base with
    | .error fault => return .error fault
    | .ok names =>
      return (← namesWithLog base names).map fun names => (newestFirst names).map base.child

def lines (log : Path) : m (Except StorageFault (List Line)) := do
  return (← Storage.bytes log).map linesOfBytes

end ScriptedRobot.RunLog
