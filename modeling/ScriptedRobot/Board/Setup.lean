import ScriptedRobot.Board
import ScriptedRobot.Text.Occurrence

/-!
# Setting up a board

A board starts from its level: blockers, doors and the listed enemies with the strategies that their
patterns name. Levels without blockers of their own whose name holds "Level 3" or "Level 4" get random
hazards on top.
-/

namespace ScriptedRobot

namespace Board

/-- A listed enemy, with the pattern file it names registered. -/
def enemyOf (load : Loader) (root : Option Path) (index : Nat) (spec : EnemySpec)
    (patterns : PatternRegistry) : Log.Noting ReadFailure (Enemy × PatternRegistry) := do
  let patterns ←
    match spec.pattern.bind PatternRegistry.filePath? with
    | none => pure patterns
    | some p => do
      let (_, patterns) ← patterns.load load (PatternRegistry.key index) (resourcePath root p)
      pure patterns
  let (strategy, notes) := patterns.resolve index spec.pattern spec.axis spec.positive
  Log.note notes
  return (⟨spec.position, spec.axis, spec.positive, spec.pattern, strategy⟩, patterns)

/-- The listed enemies from a place in the list on. -/
def enemiesFrom (load : Loader) (root : Option Path) :
    Nat → List EnemySpec → PatternRegistry → Log.Noting ReadFailure (List Enemy × PatternRegistry)
  | _, [], patterns => return ([], patterns)
  | index, spec :: rest, patterns => do
    let (enemy, patterns) ← enemyOf load root index spec patterns
    let (enemies, patterns) ← enemiesFrom load root (index + 1) rest patterns
    return (enemy :: enemies, patterns)

def allTiles (width height : Int) : List Position :=
  (integers 0 (width - 1)).flatMap fun x => (integers 0 (height - 1)).map fun y => ⟨x, y⟩

theorem nodup_integers (low high : Int) : (integers low high).Nodup := by
  unfold integers
  exact List.Pairwise.map _ (fun a b (h : a ≠ b) => by omega) List.nodup_range

theorem nodup_allTiles (width height : Int) : (allTiles width height).Nodup := by
  unfold allTiles
  rw [List.Nodup, List.pairwise_flatMap]
  refine ⟨fun x _ => ?_, ?_⟩
  · exact List.Pairwise.map _ (fun a b h e => h (Position.mk.inj e).2) (nodup_integers _ _)
  · refine List.Pairwise.imp (fun {a b} h => ?_) (nodup_integers 0 (width - 1))
    rintro p hp q hq rfl
    obtain ⟨y, -, rfl⟩ := List.mem_map.1 hp
    obtain ⟨z, -, e⟩ := List.mem_map.1 hq
    exact h (Position.mk.inj e).1.symm

def ofLevel (spec : LevelSpec) (enemies : List Enemy) (patterns : PatternRegistry) : Board :=
  { width := spec.width
    height := spec.height
    blockers := .ofList spec.blockers
    doors := .ofList spec.doors
    enemies := enemies
    fogOfWar := spec.fogOfWar
    income := spec.income
    patterns := patterns }

/-- Lifts the fog of a level that has none. -/
def liftFog (b : Board) : Board :=
  if b.fogOfWar then b
  else { b with known := ⟨allTiles b.width b.height, nodup_allTiles b.width b.height⟩ }

/-- May a random blocker stand on the tile? -/
def canScatter (b : Board) (reserved : List Position) (p : Position) : Bool :=
  !reserved.contains p && p ∉ b.blockers && p ∉ b.doors && !b.isOccupied p

/-- The most enemies that appear at random. -/
def randomEnemies : Nat := 3

/-- How far from the start they appear. -/
def spawnDistance : Nat := 3

def placementAttempts : Nat := 1000

/-- May a random enemy appear on the tile? -/
def canSpawn (b : Board) (start p : Position) : Bool :=
  p != start && p ∉ b.blockers && !b.isOccupied p && decide (p.distance start > spawnDistance)

section Hazards

variable {σ : Type} [WordSource σ]

def drawTile (b : Board) (g : σ) : Position × σ :=
  let (x, g) := Random.below b.width.toNat g
  let (y, g) := Random.below b.height.toNat g
  (⟨x, y⟩, g)

/-- Draws a tile that is at least two tiles from the edge. -/
def drawInnerTile (b : Board) (g : σ) : Position × σ :=
  let (x, g) := Random.below (b.width - 4).toNat g
  let (y, g) := Random.below (b.height - 4).toNat g
  (⟨2 + x, 2 + y⟩, g)

def scatter (reserved : List Position) : Nat → Board → σ → Board × σ
  | 0, b, g => (b, g)
  | attempts + 1, b, g =>
    let (p, g) := b.drawTile g
    -- A draw that falls on a taken tile is used up: there may be fewer blockers than attempts.
    let b := if b.canScatter reserved p then { b with blockers := b.blockers.insert p } else b
    scatter reserved attempts b g

/-- Draws the place of one enemy, at most so many times. -/
def drawSpawn (b : Board) (start : Position) : Nat → σ → Option Position × σ
  | 0, g => (none, g)
  | attempts + 1, g =>
    let (p, g) := b.drawInnerTile g
    if b.canSpawn start p then (some p, g) else drawSpawn b start attempts g

/-- Lets one enemy appear, if a place for it is found. -/
def spawnOne (b : Board) (start : Position) (g : σ) : Board × σ :=
  match b.drawSpawn start placementAttempts g with
  | (none, g) => (b, g)
  | (some p, g) =>
    -- The axis is drawn before the sense; an enemy that finds no place draws neither.
    let (flat, g) := Random.coin g
    let (positive, g) := Random.coin g
    let axis : Axis := if flat then .horizontal else .vertical
    ({ b with enemies := b.enemies ++ [⟨p, axis, positive, none, axis.kind.start positive⟩] }, g)

def spawn (start : Position) : Nat → Board → σ → Board × σ
  | 0, b, g => (b, g)
  | count + 1, b, g =>
    let (b, g) := b.spawnOne start g
    spawn start count b g

/-- Lets the random enemies of a level appear, if the board has room for them. -/
def spawnAll (b : Board) (start : Position) (g : σ) : Board × σ × List Log.Entry :=
  if b.width < 5 ∨ b.height < 5 then
    (b, g, [⟨.debug, .board, s!"Grid too small for random enemies: {b.width}x{b.height}"⟩])
  else
    let (b, g) := spawn start randomEnemies b g
    (b, g, [])

def nameHolds (spec : LevelSpec) (text : String) : Bool := Text.occursIn text.toList spec.name.toList

/-- The tiles that random blockers must leave free: the start and the places of items. -/
def reservedTiles (spec : LevelSpec) : List Position :=
  spec.start :: spec.items.filterMap (·.position)

/-- Adds the random hazards of a level. -/
def addHazards (spec : LevelSpec) (b : Board) (g : σ) : Board × σ × List Log.Entry :=
  let tiles := b.width * b.height
  -- Blockers of its own keep a level free of every hazard, random enemies included.
  if !spec.blockers.isEmpty then (b, g, [])
  else if nameHolds spec "Level 3" then
    let (b, g) := scatter (reservedTiles spec) (tiles / 8).toNat b g
    (b, g, [])
  else if nameHolds spec "Level 4" then
    let (b, g) := scatter (reservedTiles spec) (tiles / 12).toNat b g
    if spec.enemies.isEmpty then b.spawnAll spec.start g else (b, g, [])
  else (b, g, [])

/-- The board of a level with its hazards, as it is before the robot enters. -/
def setUp (spec : LevelSpec) (enemies : List Enemy) (patterns : PatternRegistry) (g : σ) :
    Board × σ × List Log.Entry :=
  let (b, g, notes) := addHazards spec (ofLevel spec enemies patterns) g
  (b.liftFog, g, notes)

end Hazards

end Board

end ScriptedRobot
