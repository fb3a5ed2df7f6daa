import ScriptedRobot.Board.Setup
import ScriptedRobot.Completion

/-!
# Entering a level

Entering a level has two parts. First the level is found and the files it refers to are read, and this
can fail. `LevelEntry.begin` then sets up the board and everything else that a level starts with, and this
always succeeds: only the random hazards differ from one time to the next. A level that has been entered
is therefore entered again without reading anything. Where the files may have changed in the meantime,
`Campaign.refresh` reads them anew.
-/

namespace ScriptedRobot

/-- The levels of a game and where their resources come from. -/
structure Campaign where
  levels : List LevelSpec
  loader : Loader
  /-- Where relative resource paths start. -/
  root : Option Path := none

/-- Why a level cannot be entered. -/
inductive EntryFailure where
  | noSuchLevel
  /-- A file it refers to cannot be read for what it should be. -/
  | resource (failure : ReadFailure)
  deriving DecidableEq, Repr

/-- What a level is entered with. -/
structure LevelEntry where
  /-- The index of the level; a negative one counts from the end. -/
  index : Int
  spec : LevelSpec
  /-- The listed enemies, with their strategies fresh. -/
  enemies : List Enemy
  /-- The pattern files that were read for them. -/
  patterns : PatternRegistry
  /-- The items that are placed. -/
  items : List Item
  robot : Robot
  /-- The credits so far. -/
  credits : Int
  boardNotes : List Log.Entry
  itemNotes : List Log.Entry

/-- How far a level has been played. -/
structure Play where
  entry : LevelEntry
  board : Board
  robot : Robot
  items : ItemStore
  rule : Option CompletionRule
  turns : Nat := 0
  /-- The tiles that grabs and scans have made known. -/
  discovered : Nat := 0
  finished : Bool := false
  /-- Do the enemies stand still for now? -/
  enemiesPaused : Bool := false
  stunned : Countdown Nat := .empty
  removed : Countdown Position := .empty
  printed : List String := []
  errors : List String := []
  panicked : Bool := false
  /-- For how many milliseconds time is slowed, if it is. -/
  timeSlow : Option Int := none

/-- The level of an index. A negative index counts from the end. -/
def Campaign.level? (c : Campaign) (index : Int) : Option LevelSpec :=
  if 0 ≤ index then c.levels[index.toNat]?
  else if 0 ≤ c.levels.length + index then c.levels[(c.levels.length + index).toNat]?
  else none

/-- Makes the items of a level that have a place. A robot that carries a scanner finds no other. -/
def Campaign.placeItems (c : Campaign) (hasScanner : Bool) :
    List ItemSpec → Log.Noting ReadFailure (List Item)
  | [] => return []
  | spec :: rest =>
    match spec.position with
    | none => do
      Log.note [⟨.debug, .session, s!"Skipping unplaced item {spec.name}"⟩]
      placeItems c hasScanner rest
    | some place =>
      if spec.name = Item.scannerName ∧ hasScanner then placeItems c hasScanner rest
      else do
        let item ← Item.build c.loader c.root spec place
        return item :: (← placeItems c hasScanner rest)

/-- What a level is entered with, its files read anew. It stays as it was if they cannot be read. -/
def Campaign.refresh (c : Campaign) (e : LevelEntry) : LevelEntry :=
  let hasScanner := e.robot.hasItem Item.scannerName
  -- Both are read before either is replaced: an entry never mixes old enemies with new items.
  match (Board.enemiesFrom c.loader c.root 0 e.spec.enemies {}).outcome,
    (c.placeItems hasScanner e.spec.items).outcome with
  | (.ok (enemies, patterns), boardNotes), (.ok items, itemNotes) =>
    { e with
      enemies := enemies
      patterns := patterns
      items := items
      boardNotes := boardNotes
      itemNotes := itemNotes }
  | _, _ => e

section Begin

variable {σ : Type} [WordSource σ]

/-- The board of a level as the robot finds it, with what is noted about its hazards. -/
def LevelEntry.board (e : LevelEntry) (g : σ) : Board × σ × List Log.Entry :=
  let (b, g, notes) := Board.setUp e.spec e.enemies e.patterns g
  ((b.visit e.spec.start).revealAround e.spec.start, g, notes)

def LevelEntry.begin (e : LevelEntry) (g : σ) : Play × σ × List Log.Entry :=
  let (b, g, hazardNotes) := e.board g
  let play : Play :=
    { entry := e
      board := b
      robot := e.robot
      items := ⟨e.items⟩
      rule := e.spec.texts.completionFlag.map CompletionRule.ofFlag }
  let loaded := s!"Loaded level {e.index + 1}: {e.spec.name}"
  (play, g, e.boardNotes ++ hazardNotes ++ e.itemNotes ++ [⟨.info, .session, loaded⟩])

/-- Enters a level with a robot's progress. The random hazards come before the items, so they have
been drawn even when an item cannot be made. -/
def Campaign.enter (c : Campaign) (index : Int) (progress : Option Robot) (credits : Int) (g : σ) :
    Except EntryFailure Play × σ × List Log.Entry :=
  match c.level? index with
  | none => (.error .noSuchLevel, g, [])
  | some spec =>
    match (Board.enemiesFrom c.loader c.root 0 spec.enemies {}).outcome with
    | (.error failure, notes) => (.error (.resource failure), g, notes)
    | (.ok (enemies, patterns), boardNotes) =>
      let robot := Robot.carrying spec.start progress
      let (items, itemNotes) := (c.placeItems (robot.hasItem Item.scannerName) spec.items).outcome
      let entry : LevelEntry :=
        ⟨index, spec, enemies, patterns, items.toOption.getD [], robot, credits, boardNotes, itemNotes⟩
      match items with
      | .error failure =>
        -- The board is lost, but the random numbers that its hazards took are gone.
        let (_, g, hazardNotes) := entry.board g
        (.error (.resource failure), g, boardNotes ++ hazardNotes ++ itemNotes)
      | .ok _ =>
        let (play, g, notes) := entry.begin g
        (.ok play, g, notes)

end Begin

end ScriptedRobot
