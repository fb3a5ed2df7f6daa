import ScriptedRobot.Json.Parser
import ScriptedRobot.Level.Placement
import ScriptedRobot.Storage

/-!
# Folders of levels

The levels of a game are the documents of a folder. A file `order.txt` there lists them in the order of
play; without it they are all the `.json` files by name.

A document that does not describe a level is skipped and noted. What goes beyond a document that can
be blamed, such as a file that cannot be opened, ends the loading.
-/

namespace ScriptedRobot

/-- Why a file gives no level. -/
inductive LevelFileFault where
  | missing (path : Path)
  | text (fault : TextFault)
  | json (fault : Json.Fault)
  | level (fault : LevelFault)
  deriving DecidableEq, Repr

namespace LevelFileFault

def ofText (p : Path) : TextFault → LevelFileFault
  | .storage (.notFound _) => missing p
  | fault => text fault

def message : LevelFileFault → String
  | missing path => s!"Missing level file: {path}"
  | text fault => fault.message
  | json .malformed => "the text is no JSON"
  | json .tooDeep => "the text holds values too deep inside one another"
  | json (.numeral fault) => fault.message
  | level fault => fault.message

/-- Is the file skipped for this fault? -/
def isSkipped : LevelFileFault → Bool
  | missing _ => false
  | text (.storage .nullInPath) => true
  | text (.storage _) => false
  | text .undecodable => true
  | json .tooDeep => false
  | json _ => true
  | level .sizeNotText => false
  | level .infinite => false
  | level _ => true

end LevelFileFault

/-- A file that may hold a level. -/
structure LevelFile where
  path : Path
  text : Except TextFault String

namespace LevelFile

def document (f : LevelFile) : Except LevelFileFault LevelDocument := do
  let text ← f.text.mapError (LevelFileFault.ofText f.path)
  let json ← (Json.ofString text).mapError .json
  (LevelDocument.read json).mapError .level

section Levels

variable {σ : Type} [WordSource σ]

def level (f : LevelFile) (g : σ) : Except LevelFileFault LevelSpec × σ × List Log.Entry :=
  match f.document with
  | .error fault => (.error fault, g, [])
  | .ok document =>
    let (outcome, g, notes) := document.level g
    (outcome.mapError .level, g, notes)

def skipNote (f : LevelFile) (fault : LevelFileFault) : Log.Entry :=
  ⟨.warning, .levels, s!"Skipping level file {f.path}: {fault.message}"⟩

def levels : List LevelFile → σ → Except LevelFileFault (List LevelSpec) × List Log.Entry
  | [], _ => (.ok [], [])
  | f :: rest, g =>
    match f.level g with
    | (.ok spec, g, notes) =>
      let (outcome, more) := levels rest g
      (outcome.map (spec :: ·), notes ++ more)
    | (.error fault, g, notes) =>
      if fault.isSkipped then
        let (outcome, more) := levels rest g
        (outcome, notes ++ f.skipNote fault :: more)
      else (.error fault, notes)

end Levels

end LevelFile

namespace LevelFolder

def orderFile : String := "order.txt"

/-- The end of the names of level files. -/
def extension : String := ".json"

/-- Is this the name of a level file? -/
def isLevelName (name : String) : Bool := extension.toList <:+ name.toList

/-- The names that an order file lists: one on each line, without blanks around it. Empty lines and
those that start with `#` say nothing. -/
def listedNames (text : String) : List String :=
  let names := (Text.lines text.toList).map Text.trim
  (names.filter fun name => !name.isEmpty && name.head? != some '#').map String.ofList

/-- The level files among some names, by name. -/
def sortedNames (names : List String) : List String :=
  (names.filter isLevelName).mergeSort fun a b => decide (a ≤ b)

variable {m : Type → Type} [Monad m] [Storage m]

/-- The files of an order file that are there. -/
def listedFiles (folder : Path) : List String → m (Except TextFault (List Path) × List Log.Entry)
  | [] => return (.ok [], [])
  | name :: rest => do
    let path := folder / Path.ofString name
    match ← Storage.isThere path with
    | .error fault => return (.error (.storage fault), [])
    | .ok isThere =>
      let (files, notes) ← listedFiles folder rest
      if isThere then return (files.map (path :: ·), notes)
      else
        let note := s!"Level {name} listed in {orderFile} does not exist"
        return (files, ⟨.warning, .levels, note⟩ :: notes)

/-- The level files of a folder in the order of play. -/
def files (folder : Path) : m (Except TextFault (List Path) × List Log.Entry) := do
  let failed (fault : StorageFault) : Except TextFault (List Path) × List Log.Entry :=
    (.error (.storage fault), [])
  match ← Storage.isDirectory folder with
  | .error fault => return failed fault
  | .ok false => return (.ok [], [])
  | .ok true =>
    let order := folder.child orderFile
    match ← Storage.isThere order with
    | .error fault => return failed fault
    | .ok true =>
      match ← Storage.text order with
      | .error fault => return (.error fault, [])
      | .ok text => listedFiles folder (listedNames text)
    | .ok false =>
      match ← Storage.names folder with
      | .error fault => return failed fault
      | .ok names => return (.ok ((sortedNames names).map folder.child), [])

def readFile (path : Path) : m LevelFile := do
  return ⟨path, ← Storage.text path⟩

variable {σ : Type} [WordSource σ]

/-- The levels of a folder, with the places that are left to chance drawn. -/
def load (folder : Path) (g : σ) : m (Except LevelFileFault (List LevelSpec) × List Log.Entry) := do
  match ← files folder with
  | (.error fault, notes) => return (.error (.text fault), notes)
  | (.ok paths, notes) =>
    let (outcome, more) := LevelFile.levels (← paths.mapM readFile) g
    let loaded := match outcome with
      | .ok levels => [⟨.info, .levels, s!"Loaded {levels.length} levels from {folder}"⟩]
      | .error _ => []
    return (outcome, notes ++ more ++ loaded)

end LevelFolder

end ScriptedRobot
