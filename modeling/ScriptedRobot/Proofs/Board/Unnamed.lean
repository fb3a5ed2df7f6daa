import ScriptedRobot.Board.Setup

/-!
# What named an enemy's strategy

An enemy keeps the pattern that named its strategy, and a board the pattern files that were read for its enemies.
Nothing that happens on a board looks at either: whatever is done to a board without these names comes to the same as
doing it and taking the names away afterwards. Every theorem here says so of one operation.
-/

namespace ScriptedRobot

/-- The level with other patterns for its enemies. -/
def LevelSpec.withPatterns (spec : LevelSpec) (f : EnemySpec → Option String) : LevelSpec :=
  { spec with
    enemies := spec.enemies.map fun e => { e with pattern := f e }
    placed_inside := by
      have hplaced := spec.placed_inside
      simpa [LevelDraft.placed, List.map_map, Function.comp_def] using hplaced }

/-- The level with no patterns for its enemies. -/
def LevelSpec.unnamed (spec : LevelSpec) : LevelSpec := spec.withPatterns fun _ => none

/-- Taking the patterns away leaves nothing of others that were there instead. -/
theorem LevelSpec.unnamed_withPatterns (spec : LevelSpec) (f : EnemySpec → Option String) :
    (spec.withPatterns f).unnamed = spec.unnamed := by
  simp only [unnamed, withPatterns, List.map_map, Function.comp_def]

/-- The enemy without what named its strategy. -/
def Enemy.unnamed (e : Enemy) : Enemy := { e with pattern := none }

namespace Board

/-- The board without what named the strategies of its enemies. -/
def unnamed (b : Board) : Board := { b with enemies := b.enemies.map Enemy.unnamed, patterns := {} }

/-! ## Tiles -/

@[simp] theorem enemyAt?_unnamed (b : Board) (p : Position) : b.unnamed.enemyAt? p = b.enemyAt? p := by
  simp only [enemyAt?, unnamed, List.findIdx?_map]
  rfl

@[simp] theorem isOccupied_unnamed (b : Board) (p : Position) : b.unnamed.isOccupied p = b.isOccupied p := by
  rw [isOccupied, enemyAt?_unnamed, isOccupied]

@[simp] theorem isFree_unnamed (b : Board) : b.unnamed.isFree = b.isFree := by
  funext p
  rw [isFree, isOccupied_unnamed, isFree]
  rfl

theorem unnamed_reveal (b : Board) (p : Position) : (b.reveal p).unnamed = b.unnamed.reveal p :=
  apply_ite unnamed _ _ _

theorem unnamed_revealAll (b : Board) (ps : List Position) : (b.revealAll ps).unnamed = b.unnamed.revealAll ps := by
  induction ps generalizing b with
  | nil => rfl
  | cons p ps ih =>
    rw [revealAll, List.foldl_cons, ← revealAll, ih, unnamed_reveal]
    rfl

theorem unnamed_revealAround (b : Board) (p : Position) : (b.revealAround p).unnamed = b.unnamed.revealAround p :=
  b.unnamed_revealAll (surroundings p)

theorem countHidden_unnamed (b : Board) (ps : List Position) : b.unnamed.countHidden ps = b.countHidden ps := by
  induction ps generalizing b with
  | nil => rfl
  | cons p ps ih =>
    rw [countHidden, ← unnamed_reveal, ih]
    rfl

theorem unnamed_visit (b : Board) (p : Position) : (b.visit p).unnamed = b.unnamed.visit p := apply_ite unnamed _ _ _

theorem unnamed_openDoor (b : Board) (p : Position) : (b.openDoor p).unnamed = b.unnamed.openDoor p :=
  apply_ite unnamed _ _ _

theorem unnamed_closeDoor (b : Board) (p : Position) : (b.closeDoor p).unnamed = b.unnamed.closeDoor p :=
  apply_ite unnamed _ _ _

section Drawing

variable {σ : Type} [WordSource σ]

/-! ## Enemies that move -/

theorem tickEnemy_unnamed (player : Option Position) (i : Nat) (b : Board) (g : σ) :
    b.unnamed.tickEnemy player i g =
      ((b.tickEnemy player i g).1.unnamed, (b.tickEnemy player i g).2) := by
  have hthere : b.unnamed.enemies[i]? = (b.enemies[i]?).map Enemy.unnamed := List.getElem?_map
  unfold tickEnemy
  rw [hthere, isFree_unnamed]
  cases b.enemies[i]? with
  | none => rfl
  | some e =>
    simp only [Option.map_some, Enemy.unnamed]
    simp only [unnamed, List.map_set, Enemy.unnamed]

theorem tickAll_unnamed (player : Option Position) (indices : List Nat) (b : Board) (g : σ) :
    tickAll player indices b.unnamed g =
      ((tickAll player indices b g).1.unnamed, (tickAll player indices b g).2) := by
  induction indices generalizing b g with
  | nil => rfl
  | cons i indices ih => simp only [tickAll, tickEnemy_unnamed, ih]

theorem advance_unnamed (b : Board) (player : Option Position) (stunned : Nat → Bool) (g : σ) :
    b.unnamed.advance player stunned g =
      ((b.advance player stunned g).1.unnamed, (b.advance player stunned g).2) := by
  have hlength : b.unnamed.enemies.length = b.enemies.length := List.length_map _
  rw [advance, hlength, tickAll_unnamed, advance]

/-! ## Random hazards -/

theorem scatter_unnamed (reserved : List Position) (attempts : Nat) (b : Board) (g : σ) :
    scatter reserved attempts b.unnamed g =
      ((scatter reserved attempts b g).1.unnamed, (scatter reserved attempts b g).2) := by
  induction attempts generalizing b g with
  | zero => rfl
  | succ attempts ih =>
    have hdraw : b.unnamed.drawTile g = b.drawTile g := rfl
    have hplace : ∀ p, b.unnamed.canScatter reserved p = b.canScatter reserved p := fun p => by
      rw [canScatter, isOccupied_unnamed]
      rfl
    have hput : ∀ p, (if b.unnamed.canScatter reserved p then
        { b.unnamed with blockers := b.unnamed.blockers.insert p } else b.unnamed) =
          (if b.canScatter reserved p then { b with blockers := b.blockers.insert p } else b).unnamed := fun p => by
      rw [hplace]
      split <;> rfl
    simp only [scatter, hdraw, hput, ih]

theorem drawSpawn_unnamed (b : Board) (start : Position) (attempts : Nat) (g : σ) :
    b.unnamed.drawSpawn start attempts g = b.drawSpawn start attempts g := by
  induction attempts generalizing g with
  | zero => rfl
  | succ attempts ih =>
    have hdraw : b.unnamed.drawInnerTile g = b.drawInnerTile g := rfl
    have hplace : ∀ p, b.unnamed.canSpawn start p = b.canSpawn start p := fun p => by
      rw [canSpawn, isOccupied_unnamed]
      rfl
    simp only [drawSpawn, hdraw, hplace, ih]

/-- An enemy that appears at random has no name to begin with. -/
theorem spawnOne_unnamed (b : Board) (start : Position) (g : σ) :
    b.unnamed.spawnOne start g = ((b.spawnOne start g).1.unnamed, (b.spawnOne start g).2) := by
  unfold spawnOne
  rw [drawSpawn_unnamed]
  rcases b.drawSpawn start placementAttempts g with ⟨_ | p, g'⟩
  · rfl
  · simp only [unnamed, List.map_append]
    rfl

theorem spawn_unnamed (start : Position) (count : Nat) (b : Board) (g : σ) :
    spawn start count b.unnamed g = ((spawn start count b g).1.unnamed, (spawn start count b g).2) := by
  induction count generalizing b g with
  | zero => rfl
  | succ count ih => simp only [spawn, spawnOne_unnamed, ih]

theorem spawnAll_unnamed (b : Board) (start : Position) (g : σ) :
    b.unnamed.spawnAll start g = ((b.spawnAll start g).1.unnamed, (b.spawnAll start g).2) := by
  have hsize : b.unnamed.width = b.width ∧ b.unnamed.height = b.height := ⟨rfl, rfl⟩
  unfold spawnAll
  rw [hsize.1, hsize.2, spawn_unnamed]
  split <;> rfl

theorem addHazards_unnamed (spec : LevelSpec) (b : Board) (g : σ) :
    addHazards spec.unnamed b.unnamed g = ((addHazards spec b g).1.unnamed, (addHazards spec b g).2) := by
  have hblockers : spec.unnamed.blockers = spec.blockers := rfl
  have hname : nameHolds spec.unnamed = nameHolds spec := rfl
  have hreserved : reservedTiles spec.unnamed = reservedTiles spec := rfl
  have hlisted : spec.unnamed.enemies.isEmpty = spec.enemies.isEmpty := List.isEmpty_map
  have hstart : spec.unnamed.start = spec.start := rfl
  have htiles : b.unnamed.width * b.unnamed.height = b.width * b.height := rfl
  simp only [addHazards, hblockers, hname, hreserved, hlisted, hstart, htiles, scatter_unnamed, spawnAll_unnamed]
  split
  · rfl
  · split
    · rfl
    · split
      · split <;> rfl
      · rfl

theorem setUp_unnamed (spec : LevelSpec) (enemies : List Enemy) (patterns : PatternRegistry) (g : σ) :
    setUp spec.unnamed (enemies.map Enemy.unnamed) {} g =
      ((setUp spec enemies patterns g).1.unnamed, (setUp spec enemies patterns g).2) := by
  have hlevel : ofLevel spec.unnamed (enemies.map Enemy.unnamed) {} = (ofLevel spec enemies patterns).unnamed := rfl
  have hfog : ∀ b : Board, b.unnamed.liftFog = b.liftFog.unnamed := fun b => by
    have hfogged : b.unnamed.fogOfWar = b.fogOfWar := rfl
    unfold liftFog
    rw [hfogged]
    split <;> rfl
  simp only [setUp, hlevel, addHazards_unnamed, hfog]

end Drawing

end Board

end ScriptedRobot
