import ScriptedRobot.Countdown
import ScriptedRobot.Level

/-!
# The board

The world that the robot moves in: tiles that become known, blockers, doors and enemies. Enemies tick
one after the other, each of them seeing where those before it have gone.
-/

namespace ScriptedRobot

structure Enemy where
  position : Position
  /-- The axis it was given. -/
  axis : Axis
  /-- The sense in which it walks. -/
  positive : Bool
  /-- What named its strategy. -/
  pattern : Option String
  strategy : Strategy
  deriving DecidableEq, Repr

structure Board where
  width : Int
  height : Int
  known : Distinct Position := .empty
  visited : Distinct Position := .empty
  blockers : Distinct Position := .empty
  doors : Distinct Position := .empty
  openDoors : Distinct Position := .empty
  /-- The enemies; they are told apart by their place in this list. -/
  enemies : List Enemy := []
  /-- Are unvisited tiles unknown at first? -/
  fogOfWar : Bool := true
  /-- The credits for a tile that a grab makes known. -/
  income : Int := 1
  patterns : PatternRegistry := {}

structure EnemyMove where
  /-- The enemy's place in the list. -/
  index : Nat
  old : Position
  new : Position
  deriving DecidableEq, Repr

namespace Board

/-! ## Tiles -/

def inBounds (b : Board) (p : Position) : Bool := inside b.width b.height p

/-- Can revealing the tile make it known? It must be on the board and not be known yet. -/
def isHidden (b : Board) (p : Position) : Bool := b.inBounds p && p ∉ b.known

def reveal (b : Board) (p : Position) : Board :=
  if b.isHidden p then { b with known := b.known.insert p } else b

def revealAll (b : Board) (ps : List Position) : Board := ps.foldl reveal b

/-- How many tiles are revealed when some are made known one after the other. -/
def countHidden (b : Board) : List Position → Nat
  | [] => 0
  | p :: ps => (if b.isHidden p then 1 else 0) + countHidden (b.reveal p) ps

def surroundings (p : Position) : List Position :=
  [p, p + ⟨-1, 0⟩, p + ⟨1, 0⟩, p + ⟨0, -1⟩, p + ⟨0, 1⟩]

def revealAround (b : Board) (p : Position) : Board := b.revealAll (surroundings p)

def visit (b : Board) (p : Position) : Board :=
  if b.inBounds p then { b with visited := b.visited.insert p } else b

/-- Is the way onto the tile barred by a blocker or a closed door? -/
def isBlocked (b : Board) (p : Position) : Bool :=
  p ∈ b.blockers || (p ∈ b.doors && p ∉ b.openDoors)

/-- Is the way barred although some obstacles are removed for a while? -/
def isBlockedUnless (b : Board) (removed : Position → Bool) (p : Position) : Bool :=
  !removed p && b.isBlocked p

def walkableCount (b : Board) : Int := b.width * b.height - b.blockers.size

def knownWalkable (b : Board) : Nat := (b.known.filter (· ∉ b.blockers)).size

/-! ## Doors -/

def isDoor (b : Board) (p : Position) : Bool := p ∈ b.doors

def isDoorOpen (b : Board) (p : Position) : Bool := p ∈ b.doors && p ∈ b.openDoors

def openDoor (b : Board) (p : Position) : Board :=
  if b.isDoor p then { b with openDoors := b.openDoors.insert p } else b

def closeDoor (b : Board) (p : Position) : Board :=
  if b.isDoor p then { b with openDoors := b.openDoors.erase p } else b

/-! ## Enemies -/

/-- The first enemy on a tile. -/
def enemyAt? (b : Board) (p : Position) : Option Nat := b.enemies.findIdx? fun e => e.position == p

def isOccupied (b : Board) (p : Position) : Bool := (b.enemyAt? p).isSome

/-- May an enemy step onto the tile? -/
def isFree (b : Board) (p : Position) : Bool := b.inBounds p && !b.isBlocked p && !b.isOccupied p

section Ticking

variable {σ : Type} [WordSource σ]

/-- Lets one enemy move. A bouncing enemy shows the sense in which its strategy walks. -/
def tickEnemy (player : Option Position) (index : Nat) (b : Board) (g : σ) :
    Board × Option EnemyMove × σ :=
  match b.enemies[index]? with
  | none => (b, none, g)
  | some e =>
    -- `b` already shows the enemies before this one where they have gone.
    let (target, strategy, g) := e.strategy.next b.isFree player e.position g
    let moved : Enemy :=
      { e with
        position := target.getD e.position
        positive := strategy.sense?.getD e.positive
        strategy := strategy }
    ({ b with enemies := b.enemies.set index moved },
      target.map fun new => ⟨index, e.position, new⟩, g)

/-- Lets some enemies move in turn, and tells who went where. -/
def tickAll (player : Option Position) : List Nat → Board → σ → Board × List EnemyMove × σ
  | [], b, g => (b, [], g)
  | index :: rest, b, g =>
    let (b, move, g) := b.tickEnemy player index g
    let (b, moves, g) := tickAll player rest b g
    (b, move.toList ++ moves, g)

/-- Lets every enemy that is not stunned move, in the order of the list. -/
def advance (b : Board) (player : Option Position) (stunned : Nat → Bool) (g : σ) :
    Board × List EnemyMove × σ :=
  tickAll player ((List.range b.enemies.length).filter fun i => !stunned i) b g

end Ticking

end Board

end ScriptedRobot
