import ScriptedRobot.Command
import ScriptedRobot.Distinct
import ScriptedRobot.Item

/-!
# The robot

Where the robot is, what it carries and how far it reaches: the grabber takes in every tile within a
number of orthogonal steps, the scanner looks straight ahead.
-/

namespace ScriptedRobot

def inside (width height : Int) (p : Position) : Bool :=
  0 ≤ p.x && p.x < width && 0 ≤ p.y && p.y < height

/-- The integers from `low` to `high`, both included. -/
def integers (low high : Int) : List Int :=
  (List.range (high - low + 1).toNat).map fun i => low + (i : Nat)

/-- The tiles ahead of a tile, as long as they satisfy a test and at most `count` of them. -/
def ahead (test : Position → Bool) (step : Position) : Nat → Position → List Position
  | 0, _ => []
  | count + 1, p => if test (p + step) then (p + step) :: ahead test step count (p + step) else []

/-- How far the robot's tools have been extended. -/
structure Upgrades where
  grabberLevel : Int := 1
  /-- How many tiles the scanner sees beyond the first. -/
  scannerLevel : Int := 0
  /-- The reach of the laser; zero sets no limit. -/
  attackRange : Int := 0
  deriving DecidableEq, Repr

structure Robot where
  position : Position
  upgrades : Upgrades := {}
  inventory : Distinct String := .empty
  autoGrab : Bool := false

namespace Robot

/-- A fresh robot at a start tile that keeps the upgrades and the items of another one, if any. -/
def carrying (start : Position) (progress : Option Robot) : Robot :=
  match progress with
  | none => { position := start }
  | some r => { position := start, upgrades := r.upgrades, inventory := r.inventory }

def grabberRange (r : Robot) : Int := r.upgrades.grabberLevel

def scannerRange (r : Robot) : Int := 1 + r.upgrades.scannerLevel

def hasItem (r : Robot) (name : String) : Bool := name ∈ r.inventory

def addItem (r : Robot) (name : String) : Robot := { r with inventory := r.inventory.insert name }

def upgradeGrabber (r : Robot) (amount : Int) : Robot :=
  { r with upgrades := { r.upgrades with grabberLevel := r.upgrades.grabberLevel + amount } }

/-- Sets the scanner level; a positive one brings the scanner itself. -/
def setScannerLevel (r : Robot) (level : Int) : Robot :=
  let r := { r with upgrades := { r.upgrades with scannerLevel := level } }
  if level > 0 then r.addItem Item.scannerName else r

/-- The tiles in reach of the grabber, row by row. -/
def grabberTiles (r : Robot) (width height : Int) : List Position :=
  let reach := r.grabberRange
  let p := r.position
  (integers (max 0 (p.y - reach)) (min (height - 1) (p.y + reach))).flatMap fun y =>
    ((integers (max 0 (p.x - reach)) (min (width - 1) (p.x + reach))).map (⟨·, y⟩)).filter
      fun q => (p.distance q : Int) ≤ reach

/-- The tiles that the scanner sees in one direction, the nearest first. -/
def scannerTiles (r : Robot) (step : Position) (width height : Int) : List Position :=
  ahead (inside width height) step r.scannerRange.toNat r.position

end Robot

/-- The index of the first level with enemies. Lasers work from there on. -/
def enemyLevelIndex : Int := 3

namespace Robot

/-- The kinds of command that a level allows. -/
def availableFunctions (level : Int) (r : Robot) : List CommandKind :=
  [.move, .grab, .searchAll, .setAutoGrab, .openDoor, .println, .eprintln, .panic, .skipLevel,
   .gotoLevel]
  ++ (if r.hasItem Item.scannerName then [.scan] else [])
  ++ (if level ≥ enemyLevelIndex ∨ r.upgrades.attackRange > 0 then [.laserDirection, .laserTile]
      else [])

/-- The kinds of command that are not shown to players. -/
def hiddenFunctions : List CommandKind := [.skipLevel, .gotoLevel]

/-- How the allowed calls are shown to players. -/
def visibleFunctions (level : Int) (r : Robot) : List String :=
  ((r.availableFunctions level).filter fun kind => !hiddenFunctions.contains kind).map
    CommandKind.signature

end Robot

end ScriptedRobot
