import ScriptedRobot.Json.Shown
import ScriptedRobot.Schema.Level

/-!
# Level documents

A level is written by its author as a JSON document. Positions and the number of obstacles are read at
once, and read liberally: a whole number may be a float, which is cut off, or a text. Everything else
is kept as it was written until the level is made from it.
-/

namespace ScriptedRobot

/-- Why a document does not describe a level. -/
inductive LevelFault where
  | missingField (key : String)
  | notRecord
  /-- A value that consists of several is needed. -/
  | notSequence
  /-- A number, or a text that holds one, is needed. -/
  | notNumber
  | infinite
  | undefined
  | numeral (fault : Text.NumeralFault)
  /-- A position needs two values and has fewer. -/
  | tooFew (count : Nat)
  /-- A position needs two values and has more. -/
  | tooMany
  | sizeNotText
  | size (text : String)
  /-- There is no tile to choose from. -/
  | noTiles
  /-- The level is not valid. -/
  | invalid (issues : List Schema.Issue)
  deriving DecidableEq, Repr

namespace LevelFault

def message : LevelFault → String
  | missingField key => Text.quotedString key
  | notRecord => "a value with fields is needed"
  | notSequence => "a sequence of values is needed"
  | notNumber => "a number is needed"
  | infinite => "cannot convert float infinity to integer"
  | undefined => "cannot convert float NaN to integer"
  | numeral fault => fault.message
  | tooFew count => s!"not enough values to unpack (expected 2, got {count})"
  | tooMany => "too many values to unpack (expected 2)"
  | sizeNotText => "the size is no text"
  | size text => "Grid size must be in format 'WxH', got " ++ Text.quotedString text
  | noTiles => "empty range for randrange()"
  | invalid issues => s!"{issues.length} invalid value(s)"

end LevelFault

structure EnemyEntry where
  start : Position
  pattern : Json
  /-- Does it start in the positive sense? -/
  positive : Json

structure ItemEntry where
  name : Json
  file : Json
  /-- Is its place drawn at random? -/
  random : Json
  /-- Its place, if the author gave one. -/
  place : Option Position
  capabilities : Json

structure LevelDocument where
  name : Json
  /-- The size of the board. -/
  size : Json
  obstacles : Int
  blockers : List Position
  doors : List Position
  enemies : List EnemyEntry
  items : List ItemEntry
  income : Json
  start : Position
  maxTurns : Json
  fogOfWar : Json
  texts : List (String × Json)

namespace LevelDocument

/-- The values that a value consists of: the elements of an array, the characters of a text, the keys
of an object. -/
def members : Json → Except LevelFault (List Json)
  | .arr elements => .ok elements
  | .str s => .ok (s.toList.map fun c => .str (String.singleton c))
  | .obj fields => .ok (fields.map fun field => .str field.1)
  | _ => .error .notSequence

/-- A whole number. A fraction is cut off. -/
def wholeNumber : Json → Except LevelFault Int
  | .int n => .ok n
  | .bool b => .ok (if b then 1 else 0)
  | .float x =>
    match x.truncate? with
    | some n => .ok n
    | none => .error (if x = .nan then .undefined else .infinite)
  | .str s => (Text.Numeral.read s.toList).mapError .numeral
  | _ => .error .notNumber

def position (j : Json) : Except LevelFault Position := do
  match ← members j with
  | [x, y] =>
    let x ← wholeNumber x
    let y ← wholeNumber y
    return ⟨x, y⟩
  | [] => throw (.tooFew 0)
  | [_] => throw (.tooFew 1)
  | _ => throw .tooMany

def field (key : String) : Json → Except LevelFault Json
  | .obj fields =>
    match fields.lookup key with
    | some j => .ok j
    | none => .error (.missingField key)
  | _ => .error .notRecord

def fieldOr (key : String) (default : Json) (j : Json) : Json := (j.get? key).getD default

/-- The members of a field that may be left out, each read. -/
def fieldMembers {α : Type} (key : String) (read : Json → Except LevelFault α) (j : Json) :
    Except LevelFault (List α) := do
  (← members (fieldOr key (.arr []) j)).mapM read

def enemy (j : Json) : Except LevelFault EnemyEntry := do
  let start ← position (← field "start_location" j)
  return ⟨start, fieldOr "movement_pattern" (.str Axis.horizontal.name) j,
    fieldOr "moving_positive" (.bool true) j⟩

/-- The place of an item, if the author gave one. -/
def place (j : Json) : Except LevelFault (Option Position) :=
  let given := fieldOr "location" .null j
  if given.truthy then some <$> position given else .ok none

def item (j : Json) : Except LevelFault ItemEntry := do
  let name ← field "name" j
  let place ← place j
  return ⟨name, fieldOr "item_file" .null j, fieldOr "spawn_randomly" (.bool false) j, place,
    fieldOr "capabilities" (.obj []) j⟩

def read (j : Json) : Except LevelFault LevelDocument := do
  let name ← field "name" j
  let size ← field "grid_size" j
  let obstacles ← wholeNumber (fieldOr "obstacles" (.int 0) j)
  let blockers ← fieldMembers "blockers" position j
  let doors ← fieldMembers "doors" position j
  let enemies ← fieldMembers "enemies" enemy j
  let items ← fieldMembers "items" item j
  let start ← position (fieldOr "start_position" (.arr [.int 1, .int 1]) j)
  return {
    name, size, obstacles, blockers, doors, enemies, items, start
    income := fieldOr "income_per_square" (.int 1) j
    maxTurns := fieldOr "max_turns" (.int 0) j
    fogOfWar := fieldOr "fog_of_war" (.bool true) j
    texts := Schema.textKeys.map fun key => (key, fieldOr key .null j) }

/-! ## Writing -/

/-- The record of an enemy. -/
def enemyJson (e : EnemyEntry) : Json :=
  .obj [("start_location", Schema.positionJson e.start), ("movement_pattern", e.pattern),
    ("moving_positive", e.positive)]

/-- The record of an item. -/
def itemJson (e : ItemEntry) : Json :=
  .obj [("name", e.name), ("item_file", e.file), ("spawn_randomly", e.random),
    ("location", Json.orNull Schema.positionJson e.place), ("capabilities", e.capabilities)]

/-- The record of a document, with what the author has left out. -/
def json (d : LevelDocument) : Json :=
  .obj [("name", d.name), ("grid_size", d.size), ("obstacles", .int d.obstacles),
    ("blockers", Schema.positionsJson d.blockers), ("doors", Schema.positionsJson d.doors),
    ("enemies", .arr (d.enemies.map enemyJson)), ("items", .arr (d.items.map itemJson)),
    ("income_per_square", d.income), ("start_position", Schema.positionJson d.start),
    ("max_turns", d.maxTurns), ("fog_of_war", d.fogOfWar), ("texts", .obj d.texts)]

end LevelDocument

end ScriptedRobot
