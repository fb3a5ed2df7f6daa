import ScriptedRobot.Level
import ScriptedRobot.Schema

/-!
# Levels as records

The records that describe enemies, items and whole levels, read and written.
-/

namespace ScriptedRobot.Schema

open Checked

def enemySpec : Reader EnemySpec :=
  record ["position", "direction", "moving_positive", "movement_pattern"] fun fs =>
    EnemySpec.mk
    <$> required fs "position" position
    <*> optional fs "direction" (oneOf Axis.ofName?) .horizontal
    <*> optional fs "moving_positive" boolean true
    <*> optional fs "movement_pattern" (nullable string) none

/-- The capabilities that a level overrides. -/
def capabilityOverrides : Reader CapabilityOverrides :=
  record ["scanner_range", "grabber_boost", "credits_value", "time_slow_duration",
      "special_functions"] fun fs =>
    CapabilityOverrides.mk
    <$> noted fs "scanner_range" (nullable integer)
    <*> noted fs "grabber_boost" (nullable integer)
    <*> noted fs "credits_value" (nullable integer)
    <*> noted fs "time_slow_duration" (nullable integer)
    <*> noted fs "special_functions" (list string)

def itemSpec : Reader ItemSpec :=
  record ["name", "position", "item_file", "capabilities"] fun fs =>
    ItemSpec.mk
    <$> required fs "name" string
    <*> optional fs "position" (nullable position) none
    <*> optional fs "item_file" (nullable string) none
    <*> optional fs "capabilities" capabilityOverrides {}

/-- The size of a board. -/
abbrev Size := { n : Int // 0 < n }

def textKeys : List String :=
  ["completion_flag", "message", "hint_message", "starting_code", "achievement_message",
   "next_level_hint", "completion_message"]

/-- The texts of a level, each found by its key. -/
def levelTexts (field : String → Checked (Option String)) : Checked LevelTexts :=
  LevelTexts.mk
  <$> field "completion_flag"
  <*> field "message"
  <*> field "hint_message"
  <*> field "starting_code"
  <*> field "achievement_message"
  <*> field "next_level_hint"
  <*> field "completion_message"

/-- The fields of a level, checked in the order in which its record lists them. -/
structure LevelFields where
  name : Checked String
  width : Checked Size
  height : Checked Size
  start : Checked Position
  blockers : Checked (List Position)
  doors : Checked (List Position)
  enemies : Checked (List EnemySpec)
  items : Checked (List ItemSpec)
  fogOfWar : Checked Bool
  maxTurns : Checked Nat
  income : Checked Nat
  texts : Checked LevelTexts
  /-- Complaints about fields that no level has. -/
  others : Checked Unit := valid ()

/-- A level from its fields. -/
def LevelFields.level (f : LevelFields) : Checked LevelSpec :=
  let draft : Checked (Size × Size × LevelDraft) :=
    (fun name (w h : Size) start blockers doors enemies items fog turns income texts =>
      (w, h, ⟨name, w.val, h.val, start, blockers, doors, enemies, items, fog, turns, income, texts⟩))
    <$> f.name <*> f.width <*> f.height <*> f.start <*> f.blockers <*> f.doors <*> f.enemies
    <*> f.items <*> f.fogOfWar <*> f.maxTurns <*> f.income <*> f.texts
  (draft <* f.others).andThen fun (w, h, d) =>
    let d := { d with width := w.val, height := h.val }
    match d.check w.property h.property with
    | .ok spec => valid spec
    | .error text => fault (.inconsistent text)

/-- The keys of a level's record. -/
def levelKeys : List String :=
  ["name", "width", "height", "start", "blockers", "doors", "enemies", "items", "fog_of_war",
   "max_turns", "income_per_square"] ++ textKeys

def levelSpec : Reader LevelSpec
  | .obj fs =>
    LevelFields.level
      { name := required fs "name" string
        width := required fs "width" (integerAbove 0)
        height := required fs "height" (integerAbove 0)
        start := optional fs "start" position ⟨1, 1⟩
        blockers := optional fs "blockers" (list position) []
        doors := optional fs "doors" (list position) []
        enemies := optional fs "enemies" (list enemySpec) []
        items := optional fs "items" (list itemSpec) []
        fogOfWar := optional fs "fog_of_war" boolean true
        maxTurns := optional fs "max_turns" natural 0
        income := optional fs "income_per_square" natural 1
        texts := levelTexts fun key => optional fs key (nullable string) none
        others := noOthers levelKeys fs }
  | _ => fault .notRecord

/-! ## Writing -/

def integerJson : Option Int → Json := Json.orNull Json.int

def stringJson : Option String → Json := Json.orNull Json.str

def enemySpecJson (e : EnemySpec) : Json :=
  .obj [("position", positionJson e.position), ("direction", .str e.axis.name),
    ("moving_positive", .bool e.positive), ("movement_pattern", stringJson e.pattern)]

/-- The record of overridden capabilities; those that are not overridden show as null. -/
def capabilityOverridesJson (o : CapabilityOverrides) : Json :=
  .obj [("scanner_range", integerJson o.scannerRange.join),
    ("grabber_boost", integerJson o.grabberBoost.join),
    ("credits_value", integerJson o.creditsValue.join),
    ("time_slow_duration", integerJson o.timeSlow.join),
    ("special_functions", .strings (o.functions.getD []))]

def itemSpecJson (i : ItemSpec) : Json :=
  .obj [("name", .str i.name), ("position", Json.orNull positionJson i.position),
    ("item_file", stringJson i.file), ("capabilities", capabilityOverridesJson i.overrides)]

def levelTextsJson (t : LevelTexts) : List (String × Json) :=
  [("completion_flag", stringJson t.completionFlag), ("message", stringJson t.message),
   ("hint_message", stringJson t.hint), ("starting_code", stringJson t.startingCode),
   ("achievement_message", stringJson t.achievement),
   ("next_level_hint", stringJson t.nextLevelHint),
   ("completion_message", stringJson t.completionMessage)]

def levelSpecJson (l : LevelSpec) : Json :=
  .obj ([("name", .str l.name), ("width", .int l.width), ("height", .int l.height),
    ("start", positionJson l.start), ("blockers", positionsJson l.blockers),
    ("doors", positionsJson l.doors), ("enemies", .arr (l.enemies.map enemySpecJson)),
    ("items", .arr (l.items.map itemSpecJson)), ("fog_of_war", .bool l.fogOfWar),
    ("max_turns", .nat l.maxTurns), ("income_per_square", .nat l.income)]
    ++ levelTextsJson l.texts)

end ScriptedRobot.Schema
