import ScriptedRobot.Session

/-!
# What happens in a turn

Moving, grabbing, scanning, doors, lasers and the sweep over the whole board. The robot acts first; then
the enemies move, unless they are paused; then what lasts a number of turns runs down. When the robot
and an enemy meet, the level is entered again and the turn ends there.
-/

namespace ScriptedRobot.Session

variable {σ : Type}

/-- Is the way onto a tile barred for the robot? -/
def isBlocked (s : Session σ) (p : Position) : Bool :=
  s.play.board.isBlockedUnless s.play.removed.has p

/-- Does the robot stand where an enemy stands, on a level with enemies? -/
def meetsEnemy (s : Session σ) : Bool :=
  s.hasEnemies && s.play.board.isOccupied s.play.robot.position

/-- What lasts a number of turns runs down by one turn. -/
def tickStatus (s : Session σ) : Session σ :=
  s.onPlay fun p => { p with stunned := p.stunned.tick, removed := p.removed.tick }

section Enemies

variable [WordSource σ]

/-- Resets the level after the robot and an enemy have met. -/
def collide (s : Session σ) : Session σ :=
  let s := s.note [⟨.info, .session, s!"Enemy collision on level {s.level + 1}; reloading"⟩]
  let s := s.reload
  { s with lastResult := Reply.collision.text, collided := true }.report (.collision s.level)

/-- Lets the enemies that are not stunned move. -/
def moveEnemies (s : Session σ) : Session σ :=
  let (board, moves, g) :=
    s.play.board.advance (some s.play.robot.position) s.play.stunned.has s.rng
  let s := { s with rng := g }.onBoard fun _ => board
  { s with events := s.events ++ moves.map Event.enemyMoved }

def endTurn (s : Session σ) : Session σ :=
  if s.hasEnemies ∧ !s.play.enemiesPaused then
    let s := s.moveEnemies
    -- After an encounter nothing runs down: the level that begins anew keeps no stun and no gap.
    if s.meetsEnemy then s.collide else s.tickStatus
  else s.tickStatus

end Enemies

/-! ## Grabbing -/

def reach (s : Session σ) : List Position :=
  s.play.robot.grabberTiles s.play.board.width s.play.board.height

/-- The scanner level that an item leads to. The scanner itself counts for at least one; other items
with a range never lower the level. -/
def scannerLevelAfter (r : Robot) (i : Item) : Option Int :=
  let range := i.capabilities.scannerRange.getD 0
  if i.name = Item.scannerName then some (max 1 (if range = 0 then 1 else range))
  else if range ≠ 0 then some (max r.upgrades.scannerLevel range)
  else none

/-- What an item does to the robot that collects it. -/
def equip (r : Robot) (i : Item) : Robot :=
  let r := r.addItem i.name
  let r := match scannerLevelAfter r i with
    | some level => r.setScannerLevel level
    | none => r
  r.upgradeGrabber (i.capabilities.grabberBoost.getD 0)

/-- Collects an item: equips the robot, pays its credits and slows time. -/
def applyItem (s : Session σ) (i : Item) : Session σ :=
  let s := s.onRobot fun r => equip r i
  let s := { s with credits := s.credits + i.capabilities.creditsValue.getD 0 }
  match i.capabilities.timeSlow with
  | none => s
  | some duration =>
    if duration = 0 then s else s.onPlay fun p => { p with timeSlow := some duration }

/-- Collects one item on each of some tiles, and tells which. -/
def collectAll : List Position → Session σ → Session σ × List Item
  | [], s => (s, [])
  | p :: ps, s =>
    match s.play.items.collectAt p with
    | (none, _) => collectAll ps s
    | (some i, items) =>
      let s := (s.onPlay fun play => { play with items := items }).applyItem i
      let (s, found) := collectAll ps s
      (s, i :: found)

/-- Makes some tiles known for credits, and tells how many were not known yet. -/
def claim (s : Session σ) (ps : List Position) : Session σ × Nat :=
  let count := s.play.board.countHidden ps
  let s := s.onPlay fun p =>
    { p with board := p.board.revealAll ps, discovered := p.discovered + count }
  ({ s with credits := s.credits + count * s.play.board.income }, count)

/-- Grabs everything in reach: items first, then the unknown tiles in the reach that they lead to. -/
def grab (s : Session σ) : Session σ × Reply :=
  let (s, found) := collectAll s.reach s
  -- The reach is looked up again, since an item may just have extended it.
  let (s, tiles) := s.claim s.reach
  let s := if found.isEmpty then s else s.report (.itemsCollected (found.map (·.name)))
  (s, .grabbed (!found.isEmpty) (tiles != 0))

/-- Is there anything in reach to grab: an unknown tile or an item? -/
def hasGrabbable (s : Session σ) : Bool :=
  s.reach.any fun p => p ∉ s.play.board.known || (s.play.items.itemAt? p).isSome

/-! ## Doors -/

/-- The tiles where a door is in reach: the robot's own and its neighbours. -/
def doorTiles (p : Position) : List Position :=
  [p, p + ⟨1, 0⟩, p + ⟨0, 1⟩, p + ⟨-1, 0⟩, p + ⟨0, -1⟩]

/-- Opens or closes the first door in reach. -/
def turnDoor (s : Session σ) (wide : Bool) : Session σ × Reply :=
  match (doorTiles s.play.robot.position).find? s.play.board.isDoor with
  | none => (s, .noDoor)
  | some door =>
    if s.play.board.isDoorOpen door = wide then (s, .doorAlready wide)
    else
      (s.onBoard fun b => if wide then b.openDoor door else b.closeDoor door, .doorTurned wide)

/-! ## Lasers -/

/-- What a laser does on a tile: it stuns an enemy there, or else removes an obstacle there. -/
def laserHit (s : Session σ) (p : Position) : Option (Session σ × Reply) :=
  match s.play.board.enemyAt? p with
  | some i =>
    some (s.onPlay fun play => { play with stunned := play.stunned.set i stunTurns }, .laserEnemy p)
  | none =>
    if s.isBlocked p then
      some (s.onPlay fun play => { play with removed := play.removed.set p removalTurns },
        .laserObstacle p)
    else none

/-- How many tiles a laser crosses at most. Without a limit that is enough to leave the board. A
negative reach still takes in the first tile. -/
def laserLength (s : Session σ) : Nat :=
  let reach := s.play.robot.upgrades.attackRange
  if reach = 0 then (s.play.board.width + s.play.board.height).toNat else max 1 reach.toNat

/-- Sends a laser on from a tile, over at most so many tiles. -/
def laserFrom (s : Session σ) (step : Position) : Nat → Position → Session σ × Reply
  | 0, _ => (s, .laserNothing)
  | count + 1, p =>
    let target := p + step
    if !s.play.board.inBounds target then (s, .laserEdge)
    else
      match s.laserHit target with
      | some outcome => outcome
      | none => laserFrom s step count target

def fireDirection (s : Session σ) (step : Position) : Session σ × Reply :=
  s.laserFrom step s.laserLength s.play.robot.position

def fireTile (s : Session σ) (target : Position) : Session σ × Reply :=
  if !s.play.board.inBounds target then (s, .laserOutside)
  else (s.laserHit target).getD (s, .laserEmpty target)

/-! ## Scanning -/

/-- Scans tiles one after the other until the view is barred; tells whether the scan got through, and
whether it revealed anything. -/
def scanAll : List Position → Session σ → Session σ × Bool × Bool
  | [], s => (s, true, false)
  | p :: ps, s =>
    if s.isBlocked p then (s, false, false)
    else
      -- The tiles in front of an obstacle stay revealed although the scan fails there.
      let hidden := s.play.board.isHidden p
      let s := s.onPlay fun play =>
        { play with
          board := play.board.reveal p
          discovered := play.discovered + if hidden then 1 else 0 }
      let (s, through, found) := scanAll ps s
      (s, through, hidden || found)

section Moving

variable [WordSource σ]

/-- Scans ahead. A scan that is barred costs no turn. -/
def scan (s : Session σ) (step : Position) : Session σ × Reply :=
  let tiles := s.play.robot.scannerTiles step s.play.board.width s.play.board.height
  match scanAll tiles s with
  | (s, false, _) => (s, .blocked)
  | (s, true, found) => (s.endTurn, .scanned found)

/-! ## Moving -/

/-- Puts the robot on a tile, which with its neighbours becomes known. -/
def stepOnto (s : Session σ) (p : Position) : Session σ :=
  (s.onRobot fun r => { r with position := p }).onBoard fun b => (b.visit p).revealAround p

/-- Moves the robot by a displacement. A move costs a turn whether it succeeds or not, but the enemies
only move when it does. -/
def move (s : Session σ) (step : Position) : Session σ × Reply :=
  let here := s.play.robot.position
  let target := here + step
  let s := s.onPlay fun p => { p with turns := p.turns + 1 }
  -- Neither of the two failures ends the turn, so nothing that lasts a number of turns runs down.
  if !s.play.board.inBounds target then (s, .blocked)
  else if s.isBlocked target then (s.onBoard fun b => b.revealAround here, .blocked)
  else
    let s := s.stepOnto target
    if s.meetsEnemy then (s.collide, .collision)
    else
      -- An automatic grab is part of the move: its answer is dropped, and it ends no turn of its own.
      let s := if s.play.robot.autoGrab && s.hasGrabbable then s.grab.1 else s
      let s := s.endTurn
      (s, if s.collided then .collision else .moved)

/-! ## Searching -/

/-- How many steps a search takes at most to get to its starting corner. -/
def homingLimit : Nat := 100

/-- How many steps a search takes at most from there on. -/
def sweepLimit : Nat := 200

/-- Is there no further step up, or to the left? -/
def atEdge (s : Session σ) (step : Position) : Bool :=
  let p := s.play.robot.position
  (step == Heading.up.step && p.y ≤ 0) || (step == Heading.left.step && p.x ≤ 0)

/-- Goes up or to the left as far as the board reaches, in at most so many steps. Answers with the steps
that are left, or with why the search is over. -/
def homeAlong (step : Position) : Nat → Session σ → Session σ × Except Reply Nat
  | 0, s => (s, .ok 0)
  | left + 1, s =>
    if s.atEdge step then (s, .ok (left + 1))
    else if s.isBlocked (s.play.robot.position + step) then (s, .error .searchStartBlocked)
    else
      let s := (s.move step).1
      if s.collided then (s, .error .collision) else homeAlong step left s

/-- Has the sweep come to the end of the last row? -/
def sweepDone (s : Session σ) (toRight : Bool) : Bool :=
  let p := s.play.robot.position
  p.y ≥ s.play.board.height - 1 && (if toRight then p.x ≥ s.play.board.width - 1 else p.x ≤ 0)

/-- The next step of a sweep, and the sense in which it goes on: along the row if it can, else down to
the next row and back. -/
def sweepStep? (s : Session σ) (toRight : Bool) : Option (Position × Bool) :=
  let here := s.play.robot.position
  let along := if toRight then Heading.right.step else Heading.left.step
  let isOpen (p : Position) : Bool := s.play.board.inBounds p && !s.isBlocked p
  if isOpen (here + along) then some (along, toRight)
  else if isOpen (here + Heading.down.step) then some (Heading.down.step, !toRight)
  else none

/-- Sweeps the board row by row, in at most so many steps. `before` is how many tiles were known before
the search. -/
def sweep (before : Nat) (toRight : Bool) : Nat → Session σ → Session σ × Reply
  | left, s =>
    let discovered := s.play.board.known.size - before
    if s.sweepDone toRight then (s, .searchComplete discovered)
    else
      match left with
      | 0 => (s, .searchIncomplete discovered)
      | left + 1 =>
        match s.sweepStep? toRight with
        | none => (s, .searchBlocked discovered)
        | some (step, toRight) =>
          let s := (s.move step).1
          if s.collided then (s, .collision) else sweep before toRight left s

/-- Goes to the upper left corner and sweeps the board from there. -/
def searchFrom (s : Session σ) : Session σ × Reply :=
  let before := s.play.board.known.size
  match homeAlong Heading.up.step homingLimit s with
  | (s, .error reply) => (s, reply)
  | (s, .ok left) =>
    -- The way to the left has only the steps that the way up has left over.
    match homeAlong Heading.left.step left s with
    | (s, .error reply) => (s, reply)
    | (s, .ok _) => sweep before true sweepLimit s

/-- Searches the whole board while the enemies stand still. -/
def searchAll (s : Session σ) : Session σ × Reply :=
  let (s, reply) := (s.onPlay fun p => { p with enemiesPaused := true }).searchFrom
  (s.onPlay fun p => { p with enemiesPaused := false }, reply)

end Moving

end ScriptedRobot.Session
