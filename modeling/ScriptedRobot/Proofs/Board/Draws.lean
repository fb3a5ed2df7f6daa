import ScriptedRobot.Proofs.Board.Hazards
import ScriptedRobot.Proofs.Board.Ticking

/-!
# Every draw has something to choose from

`below?` is a draw that is refused when there is nothing to choose from. The setting up of a board and the
moves of its enemies are written once more with such draws: each function whose name ends in a question mark is
the one without it, but for the draws. They are never refused, and so they come to the same as before
(`setUp?_eq`, `advance?_eq`).
-/

namespace ScriptedRobot

variable {σ : Type} [WordSource σ]

namespace Random

/-- Draws a number below `n`, unless there is none. -/
def below? (n : Nat) (g : σ) : Option (Nat × σ) := if n = 0 then none else some (below n g)

theorem below?_eq {n : Nat} (pos : 0 < n) (g : σ) : below? n g = some (below n g) :=
  if_neg (Nat.ne_of_gt pos)

end Random

namespace Board

/-! ## Hazards -/

def drawTile? (b : Board) (g : σ) : Option (Position × σ) := do
  let (x, g) ← Random.below? b.width.toNat g
  let (y, g) ← Random.below? b.height.toNat g
  return (⟨x, y⟩, g)

def drawInnerTile? (b : Board) (g : σ) : Option (Position × σ) := do
  let (x, g) ← Random.below? (b.width - 4).toNat g
  let (y, g) ← Random.below? (b.height - 4).toNat g
  return (⟨2 + x, 2 + y⟩, g)

def scatter? (reserved : List Position) : Nat → Board → σ → Option (Board × σ)
  | 0, b, g => some (b, g)
  | attempts + 1, b, g => do
    let (p, g) ← b.drawTile? g
    let b := if b.canScatter reserved p then { b with blockers := b.blockers.insert p } else b
    scatter? reserved attempts b g

def drawSpawn? (b : Board) (start : Position) : Nat → σ → Option (Option Position × σ)
  | 0, g => some (none, g)
  | attempts + 1, g => do
    let (p, g) ← b.drawInnerTile? g
    if b.canSpawn start p then some (some p, g) else drawSpawn? b start attempts g

def spawnOne? (b : Board) (start : Position) (g : σ) : Option (Board × σ) := do
  match ← b.drawSpawn? start placementAttempts g with
  | (none, g) => some (b, g)
  | (some p, g) =>
    let (flat, g) := Random.coin g
    let (positive, g) := Random.coin g
    let axis : Axis := if flat then .horizontal else .vertical
    some ({ b with enemies := b.enemies ++ [⟨p, axis, positive, none, axis.kind.start positive⟩] }, g)

def spawn? (start : Position) : Nat → Board → σ → Option (Board × σ)
  | 0, b, g => some (b, g)
  | count + 1, b, g => do
    let (b, g) ← b.spawnOne? start g
    spawn? start count b g

def spawnAll? (b : Board) (start : Position) (g : σ) : Option (Board × σ × List Log.Entry) :=
  if b.width < 5 ∨ b.height < 5 then
    some (b, g, [⟨.debug, .board, s!"Grid too small for random enemies: {b.width}x{b.height}"⟩])
  else do
    let (b, g) ← spawn? start randomEnemies b g
    return (b, g, [])

def addHazards? (spec : LevelSpec) (b : Board) (g : σ) : Option (Board × σ × List Log.Entry) :=
  let tiles := b.width * b.height
  if !spec.blockers.isEmpty then some (b, g, [])
  else if nameHolds spec "Level 3" then do
    let (b, g) ← scatter? (reservedTiles spec) (tiles / 8).toNat b g
    return (b, g, [])
  else if nameHolds spec "Level 4" then do
    let (b, g) ← scatter? (reservedTiles spec) (tiles / 12).toNat b g
    if spec.enemies.isEmpty then b.spawnAll? spec.start g else some (b, g, [])
  else some (b, g, [])

def setUp? (spec : LevelSpec) (enemies : List Enemy) (patterns : PatternRegistry) (g : σ) :
    Option (Board × σ × List Log.Entry) := do
  let (b, g, notes) ← addHazards? spec (ofLevel spec enemies patterns) g
  return (b.liftFog, g, notes)

theorem drawTile?_eq {b : Board} (hw : 0 < b.width) (hh : 0 < b.height) (g : σ) :
    b.drawTile? g = some (b.drawTile g) := by
  have hcolumns : 0 < b.width.toNat := by omega
  have hrows : 0 < b.height.toNat := by omega
  simp only [drawTile?, Random.below?_eq hcolumns, Random.below?_eq hrows]
  rfl

/-- A board of five by five tiles has one that is two tiles from the edge. -/
theorem drawInnerTile?_eq {b : Board} (hw : 5 ≤ b.width) (hh : 5 ≤ b.height) (g : σ) :
    b.drawInnerTile? g = some (b.drawInnerTile g) := by
  have hcolumns : 0 < (b.width - 4).toNat := by omega
  have hrows : 0 < (b.height - 4).toNat := by omega
  simp only [drawInnerTile?, Random.below?_eq hcolumns, Random.below?_eq hrows]
  rfl

theorem scatter?_eq (reserved : List Position) (attempts : Nat) {b : Board} (hw : 0 < b.width)
    (hh : 0 < b.height) (g : σ) :
    scatter? reserved attempts b g = some (scatter reserved attempts b g) := by
  induction attempts generalizing b g with
  | zero => rfl
  | succ attempts ih =>
    simp only [scatter?, scatter, drawTile?_eq hw hh, Option.bind_eq_bind, Option.bind_some]
    -- a blocker more does not change the size of the board
    by_cases hfree : b.canScatter reserved (b.drawTile g).1 = true
    · rw [if_pos hfree]
      exact ih (b := { b with blockers := b.blockers.insert (b.drawTile g).1 }) hw hh _
    · rw [if_neg hfree]
      exact ih hw hh _

theorem drawSpawn?_eq {b : Board} (hw : 5 ≤ b.width) (hh : 5 ≤ b.height) (start : Position) (attempts : Nat)
    (g : σ) : b.drawSpawn? start attempts g = some (b.drawSpawn start attempts g) := by
  induction attempts generalizing g with
  | zero => rfl
  | succ attempts ih =>
    simp only [drawSpawn?, drawSpawn, drawInnerTile?_eq hw hh, Option.bind_eq_bind, Option.bind_some]
    by_cases hfree : b.canSpawn start (b.drawInnerTile g).1 = true
    · rw [if_pos hfree, if_pos hfree]
    · rw [if_neg hfree, if_neg hfree]
      exact ih _

theorem spawnOne?_eq {b : Board} (hw : 5 ≤ b.width) (hh : 5 ≤ b.height) (start : Position) (g : σ) :
    b.spawnOne? start g = some (b.spawnOne start g) := by
  rcases hplace : b.drawSpawn start placementAttempts g with ⟨_ | p, g'⟩
  · simp [spawnOne?, spawnOne, drawSpawn?_eq hw hh, hplace]
  · simp [spawnOne?, spawnOne, drawSpawn?_eq hw hh, hplace]

theorem spawn?_eq (start : Position) (count : Nat) {b : Board} (hw : 5 ≤ b.width) (hh : 5 ≤ b.height) (g : σ) :
    spawn? start count b g = some (spawn start count b g) := by
  induction count generalizing b g with
  | zero => rfl
  | succ count ih =>
    -- an enemy more does not change the size of the board
    have hsize : 5 ≤ (b.spawnOne start g).1.width ∧ 5 ≤ (b.spawnOne start g).1.height := by
      rcases b.spawnOne_spec start hw hh g with hnone | ⟨e, hone, -⟩
      · rw [hnone]
        exact ⟨hw, hh⟩
      · rw [hone]
        exact ⟨hw, hh⟩
    simp only [spawn?, spawn, spawnOne?_eq hw hh, Option.bind_eq_bind, Option.bind_some]
    exact ih hsize.1 hsize.2 _

theorem spawnAll?_eq (b : Board) (start : Position) (g : σ) :
    b.spawnAll? start g = some (b.spawnAll start g) := by
  unfold spawnAll? spawnAll
  by_cases hsmall : b.width < 5 ∨ b.height < 5
  · rw [if_pos hsmall, if_pos hsmall]
  · have hw : 5 ≤ b.width := by omega
    have hh : 5 ≤ b.height := by omega
    rw [if_neg hsmall, if_neg hsmall, spawn?_eq start randomEnemies hw hh]
    rfl

theorem addHazards?_eq (spec : LevelSpec) {b : Board} (hw : 0 < b.width) (hh : 0 < b.height) (g : σ) :
    addHazards? spec b g = some (addHazards spec b g) := by
  unfold addHazards? addHazards
  simp only [scatter?_eq _ _ hw hh, spawnAll?_eq, Option.bind_eq_bind, Option.bind_some]
  split
  · rfl
  · split
    · rfl
    · split
      · split <;> rfl
      · rfl

/-- Setting up a level draws from no empty range, whatever its size and its name. -/
theorem setUp?_eq (spec : LevelSpec) (enemies : List Enemy) (patterns : PatternRegistry) (g : σ) :
    setUp? spec enemies patterns g = some (setUp spec enemies patterns g) := by
  have hw : 0 < (ofLevel spec enemies patterns).width := spec.width_pos
  have hh : 0 < (ofLevel spec enemies patterns).height := spec.height_pos
  simp only [setUp?, addHazards?_eq spec hw hh]
  rfl

end Board

/-! ## Moves of the enemies -/

namespace Strategy

variable (free : Position → Bool)

/-- Looks for a free neighbour, a number of times. The one that is drawn must be in the list. -/
def randomNext? (here : Position) : Nat → σ → Option (Option Position × σ)
  | 0, g => some (none, g)
  | attempts + 1, g => do
    let (i, g) ← Random.below? neighbours.length g
    let offset ← neighbours[i]?
    if free (here + offset) then some (some (here + offset), g) else randomNext? here attempts g

def next? (s : Strategy) (player : Option Position) (here : Position) (g : σ) :
    Option (Option Position × Strategy × σ) :=
  match s with
  | random => do
    let (target, g) ← randomNext? free here randomAttempts g
    return (target, random, g)
  | s => some (s.next free player here g)

/-- There are four neighbours to choose from, and the one that is chosen is among them. -/
theorem randomNext?_eq (here : Position) (attempts : Nat) (g : σ) :
    randomNext? free here attempts g = some (randomNext free here attempts g) := by
  induction attempts generalizing g with
  | zero => rfl
  | succ attempts ih =>
    have hsome : 0 < neighbours.length := by decide
    have hchosen : (Random.below neighbours.length g).1 < neighbours.length := Random.below_lt hsome g
    simp only [randomNext?, randomNext, Random.below?_eq hsome, Option.bind_eq_bind, Option.bind_some,
      List.getElem?_eq_getElem hchosen, Option.getD_some]
    split
    · rfl
    · exact ih _

theorem next?_eq (s : Strategy) (player : Option Position) (here : Position) (g : σ) :
    s.next? free player here g = some (s.next free player here g) := by
  cases s with
  | random =>
    simp only [next?, randomNext?_eq]
    rfl
  | _ => rfl

end Strategy

namespace Board

def tickEnemy? (player : Option Position) (index : Nat) (b : Board) (g : σ) :
    Option (Board × Option EnemyMove × σ) :=
  match b.enemies[index]? with
  | none => some (b, none, g)
  | some e => do
    let (target, strategy, g) ← e.strategy.next? b.isFree player e.position g
    let moved : Enemy :=
      { e with
        position := target.getD e.position
        positive := strategy.sense?.getD e.positive
        strategy := strategy }
    return ({ b with enemies := b.enemies.set index moved },
      target.map fun new => ⟨index, e.position, new⟩, g)

def tickAll? (player : Option Position) : List Nat → Board → σ → Option (Board × List EnemyMove × σ)
  | [], b, g => some (b, [], g)
  | index :: rest, b, g => do
    let (b, move, g) ← b.tickEnemy? player index g
    let (b, moves, g) ← tickAll? player rest b g
    return (b, move.toList ++ moves, g)

def advance? (b : Board) (player : Option Position) (stunned : Nat → Bool) (g : σ) :
    Option (Board × List EnemyMove × σ) :=
  tickAll? player ((List.range b.enemies.length).filter fun i => !stunned i) b g

theorem tickEnemy?_eq (player : Option Position) (index : Nat) (b : Board) (g : σ) :
    b.tickEnemy? player index g = some (b.tickEnemy player index g) := by
  unfold tickEnemy? tickEnemy
  cases b.enemies[index]? with
  | none => rfl
  | some e =>
    simp only [Strategy.next?_eq]
    rfl

theorem tickAll?_eq (player : Option Position) (is : List Nat) (b : Board) (g : σ) :
    tickAll? player is b g = some (tickAll player is b g) := by
  induction is generalizing b g with
  | nil => rfl
  | cons index rest ih =>
    simp only [tickAll?, tickAll, tickEnemy?_eq, Option.bind_eq_bind, Option.bind_some, ih]
    rfl

/-- The enemies draw from no empty range. -/
theorem advance?_eq (b : Board) (player : Option Position) (stunned : Nat → Bool) (g : σ) :
    b.advance? player stunned g = some (b.advance player stunned g) :=
  tickAll?_eq player _ b g

end Board

end ScriptedRobot
