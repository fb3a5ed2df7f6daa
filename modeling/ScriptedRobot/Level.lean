import ScriptedRobot.Item
import ScriptedRobot.Robot
import ScriptedRobot.Strategy.Pattern

/-!
# Levels

A level description says how large the board is and what stands where. `LevelSpec` is a description in
which everything that has a place stands on the board, so whoever holds one need not check again.
-/

namespace ScriptedRobot

structure EnemySpec where
  position : Position
  /-- The axis along which it bounces without a usable pattern. -/
  axis : Axis := .horizontal
  /-- Does it start in the positive sense? -/
  positive : Bool := true
  /-- What names its strategy. -/
  pattern : Option String := none
  deriving DecidableEq, Repr

structure LevelTexts where
  completionFlag : Option String := none
  message : Option String := none
  hint : Option String := none
  startingCode : Option String := none
  achievement : Option String := none
  nextLevelHint : Option String := none
  completionMessage : Option String := none
  deriving DecidableEq, Repr

structure LevelDraft where
  name : String
  width : Int
  height : Int
  start : Position := ⟨1, 1⟩
  blockers : List Position := []
  doors : List Position := []
  enemies : List EnemySpec := []
  items : List ItemSpec := []
  /-- Are unvisited tiles unknown at first? -/
  fogOfWar : Bool := true
  /-- How many turns may be spent; zero sets no limit. -/
  maxTurns : Nat := 0
  /-- The credits for a tile that a grab makes known. -/
  income : Nat := 1
  texts : LevelTexts := {}
  deriving DecidableEq, Repr

namespace LevelDraft

def placed (d : LevelDraft) : List (String × Position) :=
  ("start", d.start)
  :: d.blockers.map (("blocker", ·))
  ++ d.doors.map (("door", ·))
  ++ d.enemies.map (fun e => ("enemy", e.position))
  ++ d.items.filterMap fun i => i.position.map ((s!"item {i.name}", ·))

/-- The first thing that does not stand on the board. -/
def misplaced? (d : LevelDraft) : Option (String × Position) :=
  d.placed.find? fun e => !inside d.width d.height e.2

def misplacedMessage (d : LevelDraft) (what : String × Position) : String :=
  s!"{what.1} {what.2.text} is outside {d.width}x{d.height}"

end LevelDraft

/-- A level description in which the board is not empty and everything stands on it. -/
structure LevelSpec extends LevelDraft where
  width_pos : 0 < width
  height_pos : 0 < height
  placed_inside : ∀ e ∈ toLevelDraft.placed, inside width height e.2

/-- Accepts a description of a board that is not empty, or says what stands outside it. -/
def LevelDraft.check (d : LevelDraft) (width_pos : 0 < d.width) (height_pos : 0 < d.height) :
    Except String LevelSpec :=
  match found : d.misplaced? with
  | some what => .error (d.misplacedMessage what)
  | none => .ok
    { d with
      width_pos := width_pos
      height_pos := height_pos
      placed_inside := fun e mem => by
        have := List.find?_eq_none.1 found e mem
        simpa using this }

end ScriptedRobot
