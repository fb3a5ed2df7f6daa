import ScriptedRobot.Json.Limits
import ScriptedRobot.Json.Parser
import ScriptedRobot.Json.Printer
import ScriptedRobot.Log
import ScriptedRobot.Schema.Turn
import ScriptedRobot.Text.Line

/-!
# Run logs

The log of a run is a text with one JSON record on each line: a header, then one record for each batch.
A reader skips the lines that it cannot read and the records that it does not know, but a line that
holds a value that is no record stops it.
-/

namespace ScriptedRobot

namespace Json

mutual

/-- A value with null in place of the numbers that are not finite. -/
def finiteOnly : Json → Json
  | float x => match x with
    | .finite negative mantissa exponent => float (.finite negative mantissa exponent)
    | _ => null
  | arr elements => arr (finiteElements elements)
  | obj fields => obj (finiteFields fields)
  | value => value

def finiteElements : List Json → List Json
  | [] => []
  | value :: rest => finiteOnly value :: finiteElements rest

def finiteFields : List (String × Json) → List (String × Json)
  | [] => []
  | (key, value) :: rest => (key, finiteOnly value) :: finiteFields rest

end

end Json

namespace RunLog

/-- The fields of a record. -/
abbrev Fields := List (String × Json)

/-! ## Writing -/

def version : Int := 1

inductive Record where
  | header (metadata : Json)
  | turn (payload : TurnPayload)

namespace Record

def headerType : String := "header"

def turnType : String := "turn"

def json : Record → Json
  | header metadata =>
    .obj [("type", .str headerType), ("schema_version", .int version), ("metadata", metadata)]
  | turn payload =>
    .obj [("type", .str turnType), ("schema_version", .int version),
      ("payload", (Schema.turnPayloadJson payload).finiteOnly)]

/-- A record as a line, with the line feed that ends it. -/
def line (r : Record) : String := r.json.render ++ "\n"

/-- How deep a value in a turn may go. -/
def depthLimit : Nat := 255

/-- Does a value in a record go too deep to be written? -/
def isTooDeep : Record → Bool
  | header _ => false
  | turn payload => payload.freeValues.any fun value => value.depth > depthLimit

/-- Are too many arrays and objects open at once in a record for it to be written? As many are read. -/
def isTooNested (r : Record) : Bool := Json.depthLimit < r.json.nesting

/-- Are all integers in a record short enough to be written? -/
def isWritable (r : Record) : Bool := r.json.isWritable

end Record

/-! ## Reading -/

inductive Fault where
  | numeral (fault : Text.NumeralFault)
  | tooDeep
  | notRecord
  | invalid (issues : List Schema.Issue)
  | undecodable
  deriving DecidableEq, Repr

/-- What a line holds: a record, nothing that can be read, or something that stops the reader. -/
abbrev Line := Except Fault (Option Fields)

/-- Reads one line. -/
def readLine (line : List Char) : Line :=
  match Json.read line with
  | .error .malformed => .ok none
  | .error (.numeral fault) => .error (.numeral fault)
  | .error .tooDeep => .error .tooDeep
  | .ok .null => .ok none
  | .ok (.obj fields) => .ok (some fields)
  | .ok _ => .error .notRecord

def hasType (type : String) (fields : Fields) : Bool :=
  match fields.lookup "type" with
  | some (.str s) => s == type
  | _ => false

/-- The metadata of a record, if it is a header. -/
def metadata? (fields : Fields) : Option Json :=
  if hasType Record.headerType fields then some ((fields.lookup "metadata").getD (.obj [])) else none

/-- The payload of a record, if it is a turn. A turn without a payload counts for nothing. -/
def payload? (fields : Fields) : Except Fault (Option TurnPayload) :=
  if hasType Record.turnType fields then
    match fields.lookup "payload" with
    | none | some .null => .ok none
    | some j =>
      match Schema.turnPayload j with
      | .valid payload => .ok (some payload)
      | .invalid issues => .error (.invalid issues)
  else .ok none

/-- What a line means to someone who looks for the header. -/
def headerIn (line : Line) : Except Fault (Option Json) := line.map fun fields => fields.bind metadata?

/-- What a line means to someone who looks for turns. -/
def turnIn (line : Line) : Except Fault (Option TurnPayload) :=
  line.bind fun fields => fields.elim (.ok none) payload?

/-- The metadata of the first header. -/
def header : List Line → Except Fault (Option Json)
  | [] => .ok none
  | line :: rest =>
    match headerIn line with
    | .error fault => .error fault
    | .ok (some metadata) => .ok (some metadata)
    | .ok none => header rest

/-- The payloads of the turns, up to the line that stops the reader, if any does. -/
def turns : List Line → List TurnPayload × Option Fault
  | [] => ([], none)
  | line :: rest =>
    match turnIn line with
    | .error fault => ([], some fault)
    | .ok payload =>
      let (payloads, fault) := turns rest
      (payload.toList ++ payloads, fault)

/-! ## What is noted -/

/-- What is noted about a line that cannot be read. -/
def skipNote? (path : String) (line : Line) (number : Nat) : Option Log.Entry :=
  match line with
  | .ok none => some ⟨.debug, .replay, s!"Skipping unreadable record {number} in {path}"⟩
  | _ => none

/-- What is noted about the lines among those looked at that cannot be read. -/
def skipNotes (path : String) (lookedAt : List Line) : List Log.Entry :=
  (lookedAt.zipIdx 1).filterMap fun (line, number) => skipNote? path line number

/-- The notes of looking for the header. -/
def headerNotes (path : String) (lines : List Line) : List Log.Entry :=
  skipNotes path <| lines.takeWhile fun line =>
    match headerIn line with
    | .ok none => true
    | _ => false

/-- The notes of looking for turns. -/
def turnNotes (path : String) (lines : List Line) : List Log.Entry :=
  skipNotes path <| lines.takeWhile fun line =>
    match turnIn line with
    | .ok _ => true
    | .error _ => false

end RunLog

end ScriptedRobot
