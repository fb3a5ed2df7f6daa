import ScriptedRobot.Proofs.Session.Reachable

/-!
# No encounter goes unnoticed

Where there are enemies, none of them ever stands on the robot's tile between two commands: the robot
and an enemy come together by a step of the one or of the other, and after both it is looked whether
they have.
-/

namespace ScriptedRobot.Session

variable {σ : Type}

/-- Nothing has met on a level with enemies exactly if none of them stands where the robot does. -/
theorem meetsEnemy_eq_false_iff {s : Session σ} : s.meetsEnemy = false ↔
    (3 ≤ s.level → ∀ e ∈ s.play.board.enemies, e.position ≠ s.play.robot.position) := by
  have hdeep : s.hasEnemies = true ↔ 3 ≤ s.level := decide_eq_true_iff
  rw [meetsEnemy, Bool.and_eq_false_imp, hdeep, Board.isOccupied_eq_false_iff]

/-- Whether robot and enemy meet depends on the level, on the enemies and on where the robot is. -/
theorem meetsEnemy_congr {s t : Session σ} (level : t.level = s.level)
    (enemies : t.play.board.enemies = s.play.board.enemies)
    (position : t.play.robot.position = s.play.robot.position) : t.meetsEnemy = s.meetsEnemy := by
  rw [meetsEnemy, meetsEnemy, hasEnemies, hasEnemies, level, Board.isOccupied, Board.isOccupied,
    Board.enemyAt?, Board.enemyAt?, enemies, position]

variable [WordSource σ]

/-- A small step either looks whether robot and enemy have met, or moves neither of them. -/
theorem Step.meetsEnemy {d : Deed} {s t : Session σ} (h : Step s d t) (hs : s.meetsEnemy = false) :
    t.meetsEnemy = false := by
  have hp := h.progress
  have hlevel : t.level = s.level := congrArg LevelEntry.index hp.entry
  have still : t.play.board.enemies = s.play.board.enemies →
      t.play.robot.position = s.play.robot.position → t.meetsEnemy = false := by
    intro enemies position
    rw [meetsEnemy_congr hlevel enemies position, hs]
  -- only these two steps move the robot or an enemy, and each of them has looked
  cases h with
  | walk heading inside way clear => exact clear
  | enemies deep awake clear => exact clear
  | look => exact still (Board.revealAll_enemies _ _) rfl
  | claim => exact still (Board.revealAll_enemies _ _) rfl
  | scan way => exact still (Board.revealAll_enemies _ [_]) rfl
  | door p wide => exact still (Board.turnDoor_enemies _ p wide) rfl
  | collect found =>
    rename_i p i items
    obtain ⟨timeSlow, he⟩ := (s.onPlay fun play => { play with items := items }).applyItem_spec i
    refine still ?_ ?_
    · rw [he]
      rfl
    · rw [he]
      exact position_equip _ i
  | _ => exact still rfl rfl

/-- Where a level begins that has no enemy on its start, nothing has met: enemies that appear at random
keep away from the start. -/
theorem Begun.meetsEnemy {levels : List LevelSpec} {s : Session σ}
    (apart : ∀ (i : Nat) (spec : LevelSpec), 3 ≤ i → levels[i]? = some spec →
      ∀ e ∈ spec.enemies, e.position ≠ spec.start)
    (hs : Grounded levels s) (h : s.Begun) : s.meetsEnemy = false := by
  rw [meetsEnemy_eq_false_iff]
  intro deep e he
  obtain ⟨g, hb⟩ := h
  have hrobot : s.play.robot.position = s.spec.start :=
    (congrArg (fun p => p.robot.position) hb).trans hs.entry.start
  have hlevel : levels[s.level.toNat]? = some s.spec := by
    have hl := hs.entry.level
    rw [Campaign.level?, if_pos (show 0 ≤ s.play.entry.index from by rw [level] at deep; omega),
      hs.levels] at hl
    exact hl
  obtain ⟨new, henemies, hnew⟩ := s.play.entry.begin_enemies g
  rw [hb, henemies, List.mem_append] at he
  rw [hrobot]
  rcases he with he | he
  · have hm : e.position ∈ s.spec.enemies.map (·.position) := by
      rw [spec, ← hs.entry.enemies]
      exact List.mem_map_of_mem he
    obtain ⟨d, hd, hp⟩ := List.mem_map.1 hm
    rw [← hp]
    exact apart s.level.toNat s.spec (by omega) hlevel d hd
  · exact hnew e he

theorem invariant_meetsEnemy {levels : List LevelSpec}
    (apart : ∀ (i : Nat) (spec : LevelSpec), 3 ≤ i → levels[i]? = some spec →
      ∀ e ∈ spec.enemies, e.position ≠ spec.start) :
    Invariant levels (fun s : Session σ => s.meetsEnemy = false) where
  begins := fun hs hb => hb.meetsEnemy apart hs
  step := fun _ hstep h => hstep.meetsEnemy h
  reread := fun {s} load h => by
    rw [meetsEnemy_congr (level_withLoader s load) rfl rfl]
    exact h
  play := fun {s t} play h => by
    have hlevel : t.level = s.level := congrArg (fun p => p.entry.index) play
    have hmeets : t.meetsEnemy = s.meetsEnemy :=
      meetsEnemy_congr hlevel (congrArg (fun p => p.board.enemies) play)
        (congrArg (fun p => p.robot.position) play)
    rw [hmeets, h]

/-- No encounter is missed. If no level with enemies lists one on its own start, then no enemy, listed
or random, stunned or not, ever stands where the robot does between two commands. -/
theorem no_enemy_on_robot {levels : List LevelSpec} {s : Session σ}
    (apart : ∀ (i : Nat) (spec : LevelSpec), 3 ≤ i → levels[i]? = some spec →
      ∀ e ∈ spec.enemies, e.position ≠ spec.start)
    (h : Reachable levels s) (deep : 3 ≤ s.level) :
    ∀ e ∈ s.play.board.enemies, e.position ≠ s.play.robot.position := by
  have hclear := ((invariant_meetsEnemy apart).reachable h).2
  exact meetsEnemy_eq_false_iff.1 hclear deep

theorem no_enemy_on_robot_courtyard : 3 ≤ (inCourtyard.execute .grab).1.level ∧
    ∀ e ∈ (inCourtyard.execute .grab).1.play.board.enemies,
      e.position ≠ (inCourtyard.execute .grab).1.play.robot.position := by
  have deep : 3 ≤ (inCourtyard.execute .grab).1.level := by decide
  have reached : Reachable courtyards.levels (inCourtyard.execute .grab).1 :=
    .command (.start rfl inCourtyard_starts) .grab
  refine ⟨deep, no_enemy_on_robot ?_ reached deep⟩
  intro i spec _ hi
  have hspec : spec = courtyard := List.eq_of_mem_replicate (List.mem_of_getElem? hi)
  rw [hspec]
  decide

end ScriptedRobot.Session
