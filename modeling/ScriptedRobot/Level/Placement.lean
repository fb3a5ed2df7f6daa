import ScriptedRobot.Level.Document
import ScriptedRobot.Log
import ScriptedRobot.Random

/-!
# From a document to a level

A document leaves some places to chance: those of its obstacles and of the items that it says to
scatter. They are drawn one after the other, and never fall on the start, on anything that the
document places or on a tile drawn before.

Drawing may fail, and what has been drawn until then stays drawn. So each step gives its outcome and
the source of random numbers as it is afterwards.
-/

namespace ScriptedRobot

def tileAttempts : Nat := 1000

section Drawing

variable {σ : Type} [WordSource σ]

def drawTile (width height : Int) (g : σ) : Except LevelFault Position × σ :=
  if width ≤ 0 then (.error .noTiles, g)
  else
    let (x, g) := Random.below width.toNat g
    -- By now the column has been drawn, so a board without rows still uses up random numbers.
    if height ≤ 0 then (.error .noTiles, g)
    else
      let (y, g) := Random.below height.toNat g
      (.ok ⟨x, y⟩, g)

/-- Draws tiles until one is not taken, at most so many times. -/
def drawFreeTile (width height : Int) (taken : List Position) :
    Nat → σ → Except LevelFault (Option Position) × σ
  | 0, g => (.ok none, g)
  | attempts + 1, g =>
    match drawTile width height g with
    | (.error fault, g) => (.error fault, g)
    | (.ok p, g) => if taken.contains p then drawFreeTile width height taken attempts g else (.ok (some p), g)

/-- Draws so many free tiles, or as many as are found one after the other; tells whether they all
were. -/
def drawFreeTiles (width height : Int) :
    Nat → List Position → σ → Except LevelFault (List Position × Bool) × σ
  | 0, _, g => (.ok ([], true), g)
  | count + 1, taken, g =>
    match drawFreeTile width height taken tileAttempts g with
    | (.error fault, g) => (.error fault, g)
    | (.ok none, g) => (.ok ([], false), g)
    | (.ok (some p), g) =>
      match drawFreeTiles width height count (p :: taken) g with
      | (.error fault, g) => (.error fault, g)
      | (.ok (ps, all), g) => (.ok (p :: ps, all), g)

end Drawing

/-- A checked value, or the fault that its issues are. -/
def Schema.Checked.orFault {α : Type} : Schema.Checked α → Except LevelFault α
  | .valid a => .ok a
  | .invalid issues => .error (.invalid issues)

/-- An enemy of the level. A pattern that is the name of an axis gives its direction instead. -/
def EnemyEntry.spec (e : EnemyEntry) : Schema.Checked EnemySpec :=
  let positive := (Schema.boolean e.positive).within (.key "moving_positive")
  let axis? : Option Axis := match e.pattern with
    | .str s => Axis.ofName? s
    | _ => none
  match axis? with
  | some axis => (fun positive => ⟨e.start, axis, positive, none⟩) <$> positive
  | none =>
    let pattern := (Schema.nullable Schema.string e.pattern).within (.key "movement_pattern")
    (fun positive pattern => ⟨e.start, .horizontal, positive, pattern⟩) <$> positive <*> pattern

namespace ItemEntry

def spec (e : ItemEntry) (place : Option Position) : Schema.Checked ItemSpec :=
  (fun name file overrides => ⟨name, place, file, overrides⟩)
  <$> (Schema.string e.name).within (.key "name")
  <*> (Schema.nullable Schema.string e.file).within (.key "item_file")
  <*> (Schema.capabilityOverrides e.capabilities).within (.key "capabilities")

variable {σ : Type} [WordSource σ]

/-- The place of an item: the one the author gave, or a free tile. -/
def drawPlace (e : ItemEntry) (width height : Int) (taken : List Position) (g : σ) :
    Except LevelFault (Option Position) × σ :=
  if e.random.truthy then drawFreeTile width height taken tileAttempts g else (.ok e.place, g)

/-- The items of a level. -/
def specs (width height : Int) :
    List ItemEntry → List Position → σ → Except LevelFault (List ItemSpec) × σ
  | [], _, g => (.ok [], g)
  | e :: rest, taken, g =>
    match e.drawPlace width height taken g with
    | (.error fault, g) => (.error fault, g)
    | (.ok place, g) =>
      match e.spec place with
      | .invalid issues => (.error (.invalid issues), g)
      | .valid item =>
        match specs width height rest (place.toList ++ taken) g with
        | (.error fault, g) => (.error fault, g)
        | (.ok items, g) => (.ok (item :: items), g)

end ItemEntry

/-- The size of a board from its text: two whole numbers with an `x` between them. -/
def boardSize (text : String) : Except LevelFault (Int × Int) :=
  match (text.toList.map Char.toLower).splitOn 'x' with
  | [width, height] =>
    match Text.Numeral.read width, Text.Numeral.read height with
    | .ok width, .ok height => .ok (width, height)
    | _, _ => .error (.size text)
  | _ => .error (.size text)

namespace LevelDocument

def boardSize (d : LevelDocument) : Except LevelFault (Int × Int) :=
  match d.size with
  | .str text => ScriptedRobot.boardSize text
  | _ => .error .sizeNotText

/-- The tiles that the document itself fills. -/
def placed (d : LevelDocument) : List Position :=
  d.start :: d.blockers ++ d.doors ++ d.enemies.map (·.start) ++ d.items.filterMap (·.place)

def text (d : LevelDocument) (key : String) : Schema.Checked (Option String) :=
  (Schema.nullable Schema.string ((d.texts.lookup key).getD .null)).within (.key key)

/-- The level with everything in its place. -/
def spec (d : LevelDocument) (width height : Int) (blockers : List Position)
    (enemies : List EnemySpec) (items : List ItemSpec) : Schema.Checked LevelSpec :=
  Schema.LevelFields.level
    { name := (Schema.string d.name).within (.key "name")
      width := (Schema.integerAbove 0 (.int width)).within (.key "width")
      height := (Schema.integerAbove 0 (.int height)).within (.key "height")
      start := .valid d.start
      blockers := .valid blockers
      doors := .valid d.doors
      enemies := .valid enemies
      items := .valid items
      fogOfWar := (Schema.boolean d.fogOfWar).within (.key "fog_of_war")
      maxTurns := (Schema.natural d.maxTurns).within (.key "max_turns")
      income := (Schema.natural d.income).within (.key "income_per_square")
      texts := Schema.levelTexts d.text }

def noRoomNote (d : LevelDocument) : Log.Entry :=
  ⟨.debug, .levels, "No room left for obstacles in " ++ d.name.shown⟩

variable {σ : Type} [WordSource σ]

def level (d : LevelDocument) (g : σ) : Except LevelFault LevelSpec × σ × List Log.Entry :=
  match d.boardSize with
  | .error fault => (.error fault, g, [])
  | .ok (width, height) =>
    match drawFreeTiles width height d.obstacles.toNat d.placed g with
    | (.error fault, g) => (.error fault, g, [])
    | (.ok (obstacles, all), g) =>
      let notes := if all then [] else [d.noRoomNote]
      match d.enemies.mapM fun e => e.spec.orFault with
      | .error fault => (.error fault, g, notes)
      | .ok enemies =>
        -- Items come last and keep clear of the obstacles as well.
        match ItemEntry.specs width height d.items (obstacles ++ d.placed) g with
        | (.error fault, g) => (.error fault, g, notes)
        | (.ok items, g) =>
          ((d.spec width height (d.blockers ++ obstacles) enemies items).orFault, g, notes)

end LevelDocument

end ScriptedRobot
