import ScriptedRobot.Command
import ScriptedRobot.Schema

/-!
# Commands as records

The record of a command names its kind and its argument. Each kind needs a certain argument, or none,
and may have no other.
-/

namespace ScriptedRobot.Schema

open Checked

/-- A command as its record holds it: a kind and any of the arguments. -/
structure CommandRecord where
  kind : CommandKind
  /-- A displacement. -/
  direction : Option Position := none
  coordinates : Option Position := none
  /-- A level, counted from one. -/
  levelNumber : Option Int := none
  flag : Option Bool := none
  message : Option String := none
  deriving DecidableEq, Repr

inductive Argument where
  | direction
  | coordinates
  | levelNumber
  | flag
  | message
  deriving DecidableEq, Repr

namespace Argument

/-- All arguments, in the order in which they are looked at. -/
def all : List Argument := [direction, coordinates, levelNumber, flag, message]

def key : Argument → String
  | direction => "direction"
  | coordinates => "coordinates"
  | levelNumber => "level_number"
  | flag => "flag"
  | message => "message"

/-- The argument that a kind needs. -/
def neededBy : CommandKind → Option Argument
  | .move | .scan | .laserDirection => some direction
  | .setAutoGrab | .openDoor => some flag
  | .laserTile => some coordinates
  | .gotoLevel => some levelNumber
  | .println | .eprintln => some message
  | .grab | .searchAll | .skipLevel | .panic => none

/-- The argument that a kind may have without needing it. -/
def allowedBy : CommandKind → Option Argument
  | .panic => some message
  | _ => none

def isGiven (r : CommandRecord) : Argument → Bool
  | direction => r.direction.isSome
  | coordinates => r.coordinates.isSome
  | levelNumber => r.levelNumber.isSome
  | flag => r.flag.isSome
  | message => r.message.isSome

/-- What is wrong with one argument of a record. -/
def complaint? (r : CommandRecord) (a : Argument) : Option String :=
  let needed := neededBy r.kind = some a
  if needed ∧ !a.isGiven r then some s!"{r.kind.tag} requires {a.key}"
  else if !needed ∧ allowedBy r.kind ≠ some a ∧ a.isGiven r then
    some s!"{r.kind.tag} cannot include {a.key}"
  else none

end Argument

/-- The command of a record whose arguments fit its kind. -/
def CommandRecord.command? (r : CommandRecord) : Option Command :=
  match r.kind with
  | .move => r.direction.bind Heading.ofStep? |>.map .move
  | .scan => r.direction.bind Heading.ofStep? |>.map .scan
  | .laserDirection => r.direction.bind Heading.ofStep? |>.map .laserDirection
  | .setAutoGrab => r.flag.map .setAutoGrab
  | .openDoor => r.flag.map .openDoor
  | .laserTile => r.coordinates.map .laserTile
  | .gotoLevel => r.levelNumber.map .gotoLevel
  | .println => r.message.map .println
  | .eprintln => r.message.map .eprintln
  | .grab => some .grab
  | .searchAll => some .searchAll
  | .skipLevel => some .skipLevel
  | .panic => some (.panic r.message)

/-- The command of a record, or the first thing about its arguments that is wrong. The only thing
that can be wrong with arguments of the right kind is a displacement that is no single step. -/
def CommandRecord.check (r : CommandRecord) : Checked Command :=
  match Argument.all.findSome? (Argument.complaint? r) with
  | some text => fault (.inconsistent text)
  | none =>
    match r.command? with
    | some c => valid c
    | none => fault (.inconsistent "direction must be a unit vector")

def commandRecord : Reader CommandRecord :=
  record ("kind" :: Argument.all.map Argument.key) fun fs =>
    CommandRecord.mk
    <$> required fs "kind" (oneOf CommandKind.ofTag?)
    <*> optional fs "direction" (nullable position) none
    <*> optional fs "coordinates" (nullable position) none
    <*> optional fs "level_number" (nullable integer) none
    <*> optional fs "flag" (nullable boolean) none
    <*> optional fs "message" (nullable string) none

def command : Reader Command := fun j => (commandRecord j).andThen CommandRecord.check

/-- The command of a record, if nothing is wrong with it. -/
def command? (j : Json) : Option Command := (command j).toOption

/-- A command as a record holds it. -/
def CommandRecord.ofCommand (c : Command) : CommandRecord :=
  match c with
  | .move h | .scan h | .laserDirection h => { kind := c.kind, direction := some h.step }
  | .setAutoGrab b | .openDoor b => { kind := c.kind, flag := some b }
  | .laserTile p => { kind := c.kind, coordinates := some p }
  | .gotoLevel n => { kind := c.kind, levelNumber := some n }
  | .println s | .eprintln s => { kind := c.kind, message := some s }
  | .panic message => { kind := c.kind, message := message }
  | .grab | .searchAll | .skipLevel => { kind := c.kind }

/-- The fields of a command's record, absent arguments showing as null. -/
def CommandRecord.fields (r : CommandRecord) : List (String × Json) :=
  [("kind", .str r.kind.tag), ("direction", Json.orNull positionJson r.direction),
   ("coordinates", Json.orNull positionJson r.coordinates),
   ("level_number", Json.orNull Json.int r.levelNumber), ("flag", Json.orNull Json.bool r.flag),
   ("message", Json.orNull Json.str r.message)]

def commandJson (c : Command) : Json := .obj (CommandRecord.ofCommand c).fields

end ScriptedRobot.Schema
