import ScriptedRobot.Proofs.Session.Entry
import ScriptedRobot.Random.Twister

/-!
# Boards as they are built

A level's board is built from the level, its pattern files and a source of random numbers. What is built beyond the
level keeps clear of what the level has: the blockers that are scattered keep clear of everything
(`Built.added_clear`), the enemies that appear of everything but closed doors (`Built.appeared_clear`).
-/

namespace ScriptedRobot

namespace LevelSpec

variable (spec : LevelSpec)

theorem scatterCount_eq_zero (h : spec.blockers ≠ [] ∨
    Board.nameHolds spec "Level 3" = false ∧ Board.nameHolds spec "Level 4" = false) : spec.scatterCount = 0 := by
  unfold scatterCount
  rcases h with hblockers | ⟨hthree, hfour⟩
  · rw [if_neg hblockers]
  · simp [hthree, hfour]

theorem scatterCount_le : (spec.scatterCount : Int) ≤
    if Board.nameHolds spec "Level 3" then spec.width * spec.height / 8 else spec.width * spec.height / 12 := by
  have htiles : 0 ≤ spec.width * spec.height :=
    Int.mul_nonneg (Int.le_of_lt spec.width_pos) (Int.le_of_lt spec.height_pos)
  unfold scatterCount
  generalize spec.width * spec.height = tiles at htiles
  split_ifs <;> omega

end LevelSpec

namespace Board

variable {σ : Type} [WordSource σ] {load : Loader} {root : Option Path} {spec : LevelSpec} {g : σ} {b : Board}

/-- The board is built for the level: its enemies are read with their pattern files, and it is set up with them. -/
def Built (load : Loader) (root : Option Path) (spec : LevelSpec) (g : σ) (b : Board) : Prop :=
  ∃ enemies patterns notes, (enemiesFrom load root 0 spec.enemies {}).outcome = (.ok (enemies, patterns), notes) ∧
    b = (setUp spec enemies patterns g).1

/-- The blockers of a board that its level does not have. -/
def added (spec : LevelSpec) (b : Board) : Distinct Position := b.blockers.filter (· ∉ spec.blockers)

/-- What stands on a board: the things of its level in their places, and hazards. -/
structure Holds (spec : LevelSpec) (b : Board) (listed : List Enemy) (scattered : List Position)
    (spawned : List Enemy) : Prop where
  width : b.width = spec.width
  height : b.height = spec.height
  doors : ∀ p, p ∈ b.doors ↔ p ∈ spec.doors
  closed : b.openDoors = .empty
  blockers : ∀ p, p ∈ b.blockers ↔ p ∈ spec.blockers ∨ p ∈ scattered
  enemies : b.enemies = listed ++ spawned
  /-- The listed enemies stand where the level lists them. -/
  listed : listed.map (·.position) = spec.enemies.map (·.position)
  /-- The others are on tiles without blockers. -/
  spawned : ∀ e ∈ spawned, e.position ∉ b.blockers

theorem Built.holds (h : Built load root spec g b) :
    ∃ listed patterns scattered spawned, Holds spec b listed scattered spawned ∧
      Hazards spec (ofLevel spec listed patterns) scattered spawned := by
  obtain ⟨listed, patterns, notes, hread, rfl⟩ := h
  obtain ⟨known, blockers, scattered, spawned, he, -, hblockers, hhazards⟩ := setUp_spec spec listed patterns g
  refine ⟨listed, patterns, scattered, spawned, ?_, hhazards⟩
  rw [he]
  refine
    { width := rfl
      height := rfl
      doors := fun p => Distinct.mem_ofList
      closed := rfl
      blockers := hblockers
      enemies := rfl
      listed := enemiesFrom_positions (Log.Noting.yields_of_outcome hread)
      spawned := fun e hm hblocker => ?_ }
  obtain ⟨-, hspawn, hnew⟩ := hhazards.spawned_clear e hm
  rcases (hblockers e.position).1 hblocker with hown | hscattered
  · exact (canSpawn_iff.1 hspawn).2.1 (Distinct.mem_ofList.2 hown)
  · exact hnew hscattered

/-- A blocker that the level does not have is on a tile of the board, and nothing else is there. There are no more of
them than the name of the level calls for, and none on a level with blockers of its own. -/
theorem Built.added_clear (h : Built load root spec g b) :
    (∀ p ∈ added spec b, inside spec.width spec.height p = true ∧ p ≠ spec.start ∧ p ∉ spec.doors ∧
        (∀ e ∈ b.enemies, e.position ≠ p) ∧ ∀ i ∈ spec.items, i.position ≠ some p) ∧
      (spec.blockers ≠ [] ∨ nameHolds spec "Level 3" = false ∧ nameHolds spec "Level 4" = false →
        (added spec b).size = 0) ∧
      ((added spec b).size : Int) ≤
        if nameHolds spec "Level 3" then spec.width * spec.height / 8 else spec.width * spec.height / 12 := by
  obtain ⟨listed, patterns, scattered, spawned, hholds, hhazards⟩ := h.holds
  have hscattered : ∀ p ∈ (added spec b).toList, p ∈ scattered := fun p hp => by
    obtain ⟨hblocker, hnew⟩ := Distinct.mem_filter.1 (Distinct.mem_def.2 hp)
    exact ((hholds.blockers p).1 hblocker).resolve_left (by simpa using hnew)
  have hsize : (added spec b).size ≤ spec.scatterCount :=
    (List.subperm_of_subset (added spec b).nodup hscattered).length_le.trans hhazards.scattered_length
  refine ⟨fun p hp => ?_, fun hnone => ?_, ?_⟩
  · have hp := hscattered p hp
    obtain ⟨hinside, hreserved, hdoor, hunoccupied⟩ := hhazards.scattered_clear p hp
    simp only [reservedTiles, List.mem_cons, List.mem_filterMap, not_or, not_exists, not_and] at hreserved
    refine ⟨hinside, hreserved.1, mt Distinct.mem_ofList.2 hdoor, fun e hm => ?_, hreserved.2⟩
    rw [hholds.enemies] at hm
    rcases List.mem_append.1 hm with hm | hm
    · exact isOccupied_eq_false_iff.1 hunoccupied e hm
    · rintro rfl
      exact (hhazards.spawned_clear e hm).2.2 hp
  · exact Nat.le_zero.1 (spec.scatterCount_eq_zero hnone ▸ hsize)
  · exact (Int.ofNat_le.2 hsize).trans spec.scatterCount_le

/-- A board with a door, an item and an enemy, on which blockers are scattered. -/
def quarry : LevelSpec where
  name := "Level 3 - Quarry"
  width := 4
  height := 4
  start := ⟨0, 0⟩
  doors := [⟨3, 0⟩]
  enemies := [⟨⟨3, 3⟩, .vertical, true, none⟩]
  items := [⟨"pick", some ⟨0, 3⟩, none, {}⟩]
  width_pos := Int.natCast_succ_pos 3
  height_pos := Int.natCast_succ_pos 3
  placed_inside := by decide

/-- Words from which the tiles (0, 3) and (0, 2) are drawn on that board. -/
def quarryWords : Random.Twister := ⟨((Vector.replicate _ 0).set 1 0x60000000).set 3 0x40000000, 0⟩

theorem added_clear_quarry : ∃ b, Built (Loader.ofTexts []) none quarry quarryWords b ∧
    (added quarry b).toList = [⟨0, 2⟩] ∧ b.enemies.map (·.position) = [⟨3, 3⟩] ∧
      ∀ p ∈ added quarry b, (∀ e ∈ b.enemies, e.position ≠ p) ∧ ∀ i ∈ quarry.items, i.position ≠ some p := by
  have hbuilt : Built (Loader.ofTexts []) none quarry quarryWords
      (setUp quarry [⟨⟨3, 3⟩, .vertical, true, none, Axis.vertical.kind.start true⟩] {} quarryWords).1 :=
    ⟨_, _, _, rfl, rfl⟩
  refine ⟨_, hbuilt, by decide +kernel, by decide +kernel, fun p hp => ?_⟩
  exact (hbuilt.added_clear.1 p hp).2.2.2

/-- Enemies that appear stand apart from one another, more than three steps away from the start, on tiles of the board
without blockers. Closed doors do not keep them off. -/
theorem Built.appeared_clear (h : Built load root spec g b) (none_listed : spec.enemies = []) :
    b.enemies.length ≤ 3 ∧ (b.enemies.map (·.position)).Nodup ∧
      ∀ e ∈ b.enemies, inside spec.width spec.height e.position = true ∧ e.position ∉ b.blockers ∧
        (b.isBlocked e.position = true ↔ e.position ∈ spec.doors) ∧ e.position ≠ spec.start ∧
        3 < e.position.distance spec.start := by
  obtain ⟨listed, patterns, scattered, spawned, hholds, hhazards⟩ := h.holds
  have hlisted : listed = [] := by
    have hpositions := hholds.listed
    rw [none_listed] at hpositions
    exact List.map_eq_nil_iff.1 hpositions
  have henemies : b.enemies = spawned := by rw [hholds.enemies, hlisted, List.nil_append]
  rw [henemies]
  refine ⟨hhazards.spawned_length, hhazards.spawned_apart, fun e hm => ?_⟩
  obtain ⟨hinside, hspawn, -⟩ := hhazards.spawned_clear e hm
  obtain ⟨haway, -, -, hfar⟩ := canSpawn_iff.1 hspawn
  have hblocker := hholds.spawned e hm
  refine ⟨hinside, hblocker, ?_, haway, hfar⟩
  rw [isBlocked, hholds.closed, Bool.or_eq_true, Bool.and_eq_true, decide_eq_true_iff, decide_eq_true_iff,
    decide_eq_true_iff, hholds.doors]
  simp [hblocker]

/-- A board on which enemies can appear on four tiles, which all have doors. -/
def gateway : LevelSpec where
  name := "Level 4 - Gateway"
  width := 8
  height := 5
  start := ⟨0, 0⟩
  doors := [⟨2, 2⟩, ⟨3, 2⟩, ⟨4, 2⟩, ⟨5, 2⟩]
  width_pos := Int.natCast_succ_pos 7
  height_pos := Int.natCast_succ_pos 4
  placed_inside := by decide

/-- Words from which the start is drawn on that board three times, and then the tiles (2, 2), (3, 2) and (4, 2). -/
def gatewayWords : Random.Twister := ⟨((Vector.replicate _ 0).set 12 0x20000000).set 18 0x40000000, 0⟩

theorem gateway_built : Built (Loader.ofTexts []) none gateway gatewayWords (setUp gateway [] {} gatewayWords).1 :=
  ⟨_, _, _, rfl, rfl⟩

theorem appeared_clear_gateway :
    gateway.enemies = [] ∧
      (setUp gateway [] {} gatewayWords).1.enemies.map (·.position) = [⟨2, 2⟩, ⟨3, 2⟩, ⟨4, 2⟩] ∧
      ∀ e ∈ (setUp gateway [] {} gatewayWords).1.enemies, 3 < e.position.distance gateway.start :=
  ⟨rfl, by decide +kernel, fun e hm => ((gateway_built.appeared_clear rfl).2.2 e hm).2.2.2.2⟩

/-- Enemies appear in closed doors. -/
theorem appeared_in_doors : ∃ b, Built (Loader.ofTexts []) none gateway gatewayWords b ∧
    nameHolds gateway "Level 4" = true ∧ nameHolds gateway "Level 3" = false ∧ gateway.blockers = [] ∧
      gateway.enemies = [] ∧ ¬ ∀ e ∈ b.enemies, b.isBlocked e.position = false :=
  ⟨_, gateway_built, by decide, by decide, rfl, rfl, by decide +kernel⟩

end Board

end ScriptedRobot
