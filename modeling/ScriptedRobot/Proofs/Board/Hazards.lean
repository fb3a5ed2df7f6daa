import ScriptedRobot.Proofs.Board.Tiles

/-!
# Random hazards

What is drawn at random lies on the board, whatever the source of words. `Hazards` lists what the hazards of a level
can add to its board: blockers and enemies, how many of them, and which tiles they keep clear of. `setUp_spec` says
that this is all that a board gets when it is set up, and `setUp_wellFormed` that the outcome is well-formed.
-/

namespace ScriptedRobot

namespace LevelSpec

variable (spec : LevelSpec)

theorem start_inside : inside spec.width spec.height spec.start = true :=
  spec.placed_inside ("start", spec.start) (by simp [LevelDraft.placed])

theorem blockers_inside {p : Position} (h : p ∈ spec.blockers) :
    inside spec.width spec.height p = true :=
  spec.placed_inside ("blocker", p) (by simp [LevelDraft.placed, h])

theorem doors_inside {p : Position} (h : p ∈ spec.doors) : inside spec.width spec.height p = true :=
  spec.placed_inside ("door", p) (by simp [LevelDraft.placed, h])

theorem enemies_inside {e : EnemySpec} (h : e ∈ spec.enemies) :
    inside spec.width spec.height e.position = true :=
  spec.placed_inside ("enemy", e.position) (by
    simp only [LevelDraft.placed, List.mem_append, List.mem_map]
    exact Or.inl (Or.inr ⟨e, h, rfl⟩))

theorem items_inside {i : ItemSpec} (h : i ∈ spec.items) {p : Position} (hp : i.position = some p) :
    inside spec.width spec.height p = true :=
  spec.placed_inside (s!"item {i.name}", p) (by
    simp only [LevelDraft.placed, List.mem_append, List.mem_filterMap]
    exact Or.inr ⟨i, h, by rw [hp]; rfl⟩)

/-- Does the level get random hazards? It does if it has no blockers of its own and its name says
so. -/
def Hazardous : Prop :=
  spec.blockers = [] ∧ (Board.nameHolds spec "Level 3" = true ∨ Board.nameHolds spec "Level 4" = true)

/-- How many blockers a level gets at random at most. -/
def scatterCount : Nat :=
  if spec.blockers = [] then
    if Board.nameHolds spec "Level 3" then (spec.width * spec.height / 8).toNat
    else if Board.nameHolds spec "Level 4" then (spec.width * spec.height / 12).toNat
    else 0
  else 0

end LevelSpec

namespace Board

variable {σ : Type} [WordSource σ]

theorem drawTile_inBounds {b : Board} (hw : 0 < b.width) (hh : 0 < b.height) (g : σ) :
    b.inBounds (b.drawTile g).1 = true := by
  have hx := Random.below_lt (n := b.width.toNat) (by omega) g
  have hy := Random.below_lt (n := b.height.toNat) (by omega) (Random.below b.width.toNat g).2
  rw [inBounds, inside_iff]
  simp only [drawTile]
  omega

theorem drawInnerTile_inBounds {b : Board} (hw : 5 ≤ b.width) (hh : 5 ≤ b.height) (g : σ) :
    b.inBounds (b.drawInnerTile g).1 = true := by
  have hx := Random.below_lt (n := (b.width - 4).toNat) (by omega) g
  have hy := Random.below_lt (n := (b.height - 4).toNat) (by omega)
    (Random.below (b.width - 4).toNat g).2
  rw [inBounds, inside_iff]
  simp only [drawInnerTile]
  omega

/-- Scattering adds blockers alone: at the end of those that there are, one for each attempt at most, and each on a
tile of the board that nothing else needs. -/
theorem scatter_spec (reserved : List Position) (attempts : Nat) {b : Board} (hw : 0 < b.width)
    (hh : 0 < b.height) (g : σ) :
    ∃ blockers scattered, (scatter reserved attempts b g).1 = { b with blockers := blockers } ∧
      blockers.toList = b.blockers.toList ++ scattered ∧ scattered.length ≤ attempts ∧
      ∀ p ∈ scattered, b.inBounds p = true ∧ p ∉ reserved ∧ p ∉ b.doors ∧ b.isOccupied p = false := by
  induction attempts generalizing b g with
  | zero => exact ⟨b.blockers, [], rfl, (List.append_nil _).symm, Nat.le_refl 0, fun p h => absurd h List.not_mem_nil⟩
  | succ attempts ih =>
    have hp := drawTile_inBounds hw hh g
    simp only [scatter]
    split
    · rename_i hc
      simp only [canScatter, Bool.and_eq_true, Bool.not_eq_true', decide_eq_true_eq] at hc
      obtain ⟨⟨⟨hreserved, hnew⟩, hdoor⟩, hoccupied⟩ := hc
      obtain ⟨blockers, scattered, he, hlist, hlength, hclear⟩ := ih (b := { b with
        blockers := b.blockers.insert (b.drawTile g).1 }) hw hh (b.drawTile g).2
      refine ⟨blockers, (b.drawTile g).1 :: scattered, he, ?_, Nat.succ_le_succ hlength, ?_⟩
      · rw [hlist, Distinct.toList_insert hnew, List.append_assoc, List.singleton_append]
      · exact List.forall_mem_cons.2 ⟨⟨hp, by simpa using hreserved, hdoor, hoccupied⟩, hclear⟩
    · obtain ⟨blockers, scattered, he, hlist, hlength, hclear⟩ := ih hw hh (b.drawTile g).2
      exact ⟨blockers, scattered, he, hlist, Nat.le_succ_of_le hlength, hclear⟩

/-- A place that is found for an enemy is an inner tile where one can appear. -/
theorem drawSpawn_spec {b : Board} {start : Position} (hw : 5 ≤ b.width) (hh : 5 ≤ b.height)
    {attempts : Nat} {g : σ} {p : Position} (h : (b.drawSpawn start attempts g).1 = some p) :
    b.inBounds p = true ∧ b.canSpawn start p = true := by
  induction attempts generalizing g with
  | zero => cases h
  | succ attempts ih =>
    simp only [drawSpawn] at h
    split at h
    · rename_i hc
      cases h
      exact ⟨drawInnerTile_inBounds hw hh g, hc⟩
    · exact ih h

/-- At most one enemy appears, who walks to and fro on a tile where one can appear. -/
theorem spawnOne_spec {b : Board} (start : Position) (hw : 5 ≤ b.width) (hh : 5 ≤ b.height) (g : σ) :
    (b.spawnOne start g).1 = b ∨
      ∃ e : Enemy, (b.spawnOne start g).1 = { b with enemies := b.enemies ++ [e] } ∧
        b.inBounds e.position = true ∧ b.canSpawn start e.position = true ∧
        e.strategy = e.axis.kind.start e.positive := by
  rcases hd : b.drawSpawn start placementAttempts g with ⟨_ | p, g'⟩
  · exact .inl (by simp only [spawnOne, hd])
  · obtain ⟨hin, hc⟩ := drawSpawn_spec hw hh (g := g) (by rw [hd])
    exact .inr ⟨_, by simp only [spawnOne, hd]; rfl, hin, hc, rfl⟩

/-- An enemy can appear on a tile that is no blocker, more than three steps from the start, and on which no other
enemy stands. Doors do not matter. -/
theorem canSpawn_iff {b : Board} {start p : Position} : b.canSpawn start p = true ↔
    p ≠ start ∧ p ∉ b.blockers ∧ (∀ e ∈ b.enemies, e.position ≠ p) ∧ spawnDistance < p.distance start := by
  rw [← isOccupied_eq_false_iff]
  simp [canSpawn, and_assoc]

/-- Enemies appear on tiles of the board where one can appear, each on another one. -/
theorem spawn_spec (start : Position) (count : Nat) {b : Board} (hw : 5 ≤ b.width) (hh : 5 ≤ b.height)
    (g : σ) :
    ∃ new, (spawn start count b g).1 = { b with enemies := b.enemies ++ new } ∧ new.length ≤ count ∧
      (new.map (·.position)).Nodup ∧
      ∀ e ∈ new, b.inBounds e.position = true ∧ b.canSpawn start e.position = true ∧
        e.strategy = e.axis.kind.start e.positive := by
  induction count generalizing b g with
  | zero =>
    refine ⟨[], ?_, Nat.le_refl 0, List.nodup_nil, fun e h => absurd h List.not_mem_nil⟩
    rw [List.append_nil]
    rfl
  | succ count ih =>
    simp only [spawn]
    rcases b.spawnOne_spec start hw hh g with hnone | ⟨e, hone, hin, hc, hfresh⟩
    · rw [hnone]
      obtain ⟨new, he, hlength, hnodup, hnew⟩ := ih hw hh (b.spawnOne start g).2
      exact ⟨new, he, Nat.le_succ_of_le hlength, hnodup, hnew⟩
    · obtain ⟨new, he, hlength, hnodup, hnew⟩ :=
        ih (b := { b with enemies := b.enemies ++ [e] }) hw hh (b.spawnOne start g).2
      -- those that appear later find the first one in its place
      have hlater : ∀ d ∈ new, b.canSpawn start d.position = true ∧ e.position ≠ d.position := fun d hd => by
        obtain ⟨haway, hopen, hapart, hfar⟩ := canSpawn_iff.1 (hnew d hd).2.1
        obtain ⟨hthere, hself⟩ := List.forall_mem_append.1 hapart
        exact ⟨canSpawn_iff.2 ⟨haway, hopen, hthere, hfar⟩, hself e (List.mem_singleton_self e)⟩
      rw [hone]
      refine ⟨e :: new, ?_, Nat.succ_le_succ hlength, ?_, ?_⟩
      · rw [he, List.append_assoc, List.singleton_append]
      · rw [List.map_cons, List.nodup_cons, List.mem_map]
        refine ⟨?_, hnodup⟩
        rintro ⟨d, hd, hsame⟩
        exact (hlater d hd).2 hsame.symm
      · exact List.forall_mem_cons.2 ⟨⟨hin, hc, hfresh⟩,
          fun d hd => ⟨(hnew d hd).1, (hlater d hd).1, (hnew d hd).2.2⟩⟩

/-- What the hazards of a level may add to a board. -/
structure Hazards (spec : LevelSpec) (b : Board) (scattered : List Position) (spawned : List Enemy) : Prop where
  /-- A blocker that is scattered is on a tile of the board that nothing else needs. -/
  scattered_clear : ∀ p ∈ scattered, b.inBounds p = true ∧ p ∉ reservedTiles spec ∧ p ∉ b.doors ∧
    b.isOccupied p = false
  /-- There are no more of them than the level asks for. -/
  scattered_length : scattered.length ≤ spec.scatterCount
  /-- An enemy that appears is on a tile of the board where one can appear, and no blocker was scattered there. -/
  spawned_clear : ∀ e ∈ spawned, b.inBounds e.position = true ∧ b.canSpawn spec.start e.position = true ∧
    e.position ∉ scattered
  /-- Each of them is on another one. -/
  spawned_apart : (spawned.map (·.position)).Nodup
  /-- There are no more of them than may appear. -/
  spawned_length : spawned.length ≤ randomEnemies
  /-- They walk to and fro. -/
  spawned_fresh : ∀ e ∈ spawned, e.strategy = e.axis.kind.start e.positive

theorem Hazards.of_scattered {spec : LevelSpec} {b : Board} {scattered : List Position}
    (clear : ∀ p ∈ scattered, b.inBounds p = true ∧ p ∉ reservedTiles spec ∧ p ∉ b.doors ∧ b.isOccupied p = false)
    (length : scattered.length ≤ spec.scatterCount) : Hazards spec b scattered [] where
  scattered_clear := clear
  scattered_length := length
  spawned_clear := fun _ h => absurd h List.not_mem_nil
  spawned_apart := List.nodup_nil
  spawned_length := Nat.zero_le _
  spawned_fresh := fun _ h => absurd h List.not_mem_nil

/-- The hazards of a level add blockers and enemies alone. -/
theorem addHazards_spec (spec : LevelSpec) {b : Board} (hw : b.width = spec.width) (hh : b.height = spec.height)
    (g : σ) :
    ∃ blockers scattered spawned,
      (addHazards spec b g).1 = { b with blockers := blockers, enemies := b.enemies ++ spawned } ∧
      blockers.toList = b.blockers.toList ++ scattered ∧ Hazards spec b scattered spawned := by
  have hwidth : 0 < b.width := hw ▸ spec.width_pos
  have hheight : 0 < b.height := hh ▸ spec.height_pos
  have hsame : b = { b with enemies := b.enemies ++ [] } := by rw [List.append_nil]
  have hnone : b.blockers.toList = b.blockers.toList ++ [] := (List.append_nil _).symm
  have hnothing : Hazards spec b [] [] := .of_scattered (fun p h => absurd h List.not_mem_nil) (Nat.zero_le _)
  unfold addHazards
  simp only
  split
  · exact ⟨b.blockers, [], [], hsame, hnone, hnothing⟩
  · rename_i hunblocked
    have hempty : spec.blockers = [] := by simpa using hunblocked
    split
    · rename_i hthree
      obtain ⟨blockers, scattered, he, hlist, hlength, hclear⟩ :=
        scatter_spec (reservedTiles spec) (b.width * b.height / 8).toNat hwidth hheight g
      have hcount : scattered.length ≤ spec.scatterCount := by
        rw [LevelSpec.scatterCount, if_pos hempty, if_pos hthree, ← hw, ← hh]
        exact hlength
      exact ⟨blockers, scattered, [], by rw [List.append_nil]; exact he, hlist, .of_scattered hclear hcount⟩
    · rename_i hthree
      split
      · rename_i hfour
        obtain ⟨blockers, scattered, he, hlist, hlength, hclear⟩ :=
          scatter_spec (reservedTiles spec) (b.width * b.height / 12).toNat hwidth hheight g
        have hcount : scattered.length ≤ spec.scatterCount := by
          rw [LevelSpec.scatterCount, if_pos hempty, if_neg hthree, if_pos hfour, ← hw, ← hh]
          exact hlength
        have hscattered : Hazards spec b scattered [] := .of_scattered hclear hcount
        rw [he]
        split
        · simp only [spawnAll]
          split
          · exact ⟨blockers, scattered, [], by rw [List.append_nil], hlist, hscattered⟩
          · rename_i hsize
            simp only [not_or, Int.not_lt] at hsize
            obtain ⟨spawned, hs, hfew, hapart, hspawned⟩ := spawn_spec (b := { b with blockers := blockers }) spec.start
              randomEnemies hsize.1 hsize.2
              (scatter (reservedTiles spec) (b.width * b.height / 12).toNat b g).2
            have hblockers : ∀ p, p ∈ blockers ↔ p ∈ b.blockers ∨ p ∈ scattered := fun p => by
              rw [Distinct.mem_def, hlist, List.mem_append]
              rfl
            refine ⟨blockers, scattered, spawned, hs, hlist,
              { hscattered with
                spawned_clear := fun e h => ?_
                spawned_apart := hapart
                spawned_length := hfew
                spawned_fresh := fun e h => (hspawned e h).2.2 }⟩
            obtain ⟨hin, hc, -⟩ := hspawned e h
            obtain ⟨haway, hopen, hfree, hfar⟩ := canSpawn_iff.1 hc
            have hclear : ¬ (e.position ∈ b.blockers ∨ e.position ∈ scattered) := mt (hblockers _).2 hopen
            rw [not_or] at hclear
            exact ⟨hin, canSpawn_iff.2 ⟨haway, hclear.1, hfree, hfar⟩, hclear.2⟩
        · exact ⟨blockers, scattered, [], by rw [List.append_nil], hlist, hscattered⟩
      · exact ⟨b.blockers, [], [], hsame, hnone, hnothing⟩

/-- A level without hazards draws nothing at random, so its board does not depend on the source. -/
theorem addHazards_eq {spec : LevelSpec} (h : ¬ spec.Hazardous) (b : Board) (g : σ) :
    (addHazards spec b g).1 = b := by
  unfold addHazards
  simp only
  split
  · rfl
  · rename_i hb
    have hempty : spec.blockers = [] := by simpa using hb
    rw [if_neg fun h3 => h ⟨hempty, Or.inl h3⟩, if_neg fun h4 => h ⟨hempty, Or.inr h4⟩]

/-- What stands on a board that has been set up: the level's own things, and its hazards. -/
theorem setUp_spec (spec : LevelSpec) (enemies : List Enemy) (patterns : PatternRegistry) (g : σ) :
    ∃ known blockers scattered spawned, (setUp spec enemies patterns g).1 =
        { ofLevel spec enemies patterns with
          known := known, blockers := blockers, enemies := enemies ++ spawned } ∧
      (∀ p ∈ known, inside spec.width spec.height p = true) ∧
      (∀ p, p ∈ blockers ↔ p ∈ spec.blockers ∨ p ∈ scattered) ∧
      Hazards spec (ofLevel spec enemies patterns) scattered spawned := by
  obtain ⟨blockers, scattered, spawned, he, hlist, hhazards⟩ :=
    addHazards_spec spec (b := ofLevel spec enemies patterns) rfl rfl g
  have hblockers : ∀ p, p ∈ blockers ↔ p ∈ spec.blockers ∨ p ∈ scattered := fun p => by
    rw [Distinct.mem_def, hlist, List.mem_append]
    exact or_congr_left Distinct.mem_ofList
  simp only [setUp, he, liftFog]
  split
  · exact ⟨.empty, blockers, scattered, spawned, rfl, fun p hp => absurd hp (Distinct.not_mem_empty p), hblockers,
      hhazards⟩
  · exact ⟨_, blockers, scattered, spawned, rfl, fun p hp => mem_allTiles.1 hp, hblockers, hhazards⟩

theorem setUp_wellFormed (spec : LevelSpec) {enemies : List Enemy} (patterns : PatternRegistry)
    (h : ∀ e ∈ enemies, inside spec.width spec.height e.position = true) (g : σ) :
    (setUp spec enemies patterns g).1.WellFormed := by
  obtain ⟨known, blockers, scattered, spawned, he, hknown, hblockers, hhazards⟩ := setUp_spec spec enemies patterns g
  rw [he]
  refine
    { width_pos := spec.width_pos
      height_pos := spec.height_pos
      visited_known := fun p hp => absurd hp (Distinct.not_mem_empty p)
      known_inside := hknown
      openDoors_doors := fun p hp => absurd hp (Distinct.not_mem_empty p)
      blockers_inside := fun p hp => ?_
      doors_inside := fun p hp => spec.doors_inside (Distinct.mem_ofList.1 hp)
      enemies_inside := fun e hm => ?_ }
  · rcases (hblockers p).1 hp with hp | hp
    · exact spec.blockers_inside hp
    · exact (hhazards.scattered_clear p hp).1
  · rcases List.mem_append.1 hm with hm | hm
    · exact h e hm
    · exact (hhazards.spawned_clear e hm).1

end Board

end ScriptedRobot
