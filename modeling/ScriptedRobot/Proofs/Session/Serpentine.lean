import Mathlib
import ScriptedRobot.Proofs.Session.Sweeping

/-!
# The way of a search over a bare board

Where there are no obstacles and no enemies, nothing stops a search but the number of its steps. It goes straight to
the corner, and from there row by row, to the right and back to the left (`serpentine`), until it has stood on every
tile or has spent its steps. `OnCourse` is what holds at every step of it, and `search_serpentine` what it comes to.
-/

namespace ScriptedRobot

namespace Board

/-- There are no blockers, no doors and no enemies. -/
structure IsBare (b : Board) : Prop where
  blockers : ∀ p, p ∉ b.blockers
  doors : ∀ p, p ∉ b.doors
  enemies : b.enemies = []

namespace IsBare

variable {b b' : Board}

theorem isBlocked (h : b.IsBare) (p : Position) : b.isBlocked p = false := by
  simp [Board.isBlocked, h.blockers, h.doors]

theorem isOccupied (h : b.IsBare) (p : Position) : b.isOccupied p = false := by
  simp [Board.isOccupied, enemyAt?, h.enemies]

theorem develops (h : b.IsBare) (k : b.Develops b') : b'.IsBare where
  blockers := by rw [k.blockers]; exact h.blockers
  doors := by rw [k.doors]; exact h.doors
  enemies := by
    have hlength := k.length_enemies
    rw [h.enemies] at hlength
    exact List.length_eq_zero_iff.1 hlength

theorem iff_sizes : b.IsBare ↔ b.blockers.size = 0 ∧ b.doors.size = 0 ∧ b.enemies.length = 0 := by
  have empty : ∀ d : Distinct Position, (∀ p, p ∉ d) ↔ d.size = 0 := fun d => by
    simp [Distinct.mem_def, Distinct.size, List.eq_nil_iff_forall_not_mem]
  rw [← empty, ← empty, List.length_eq_zero_iff]
  exact ⟨fun h => ⟨h.blockers, h.doors, h.enemies⟩, fun h => ⟨h.1, h.2.1, h.2.2⟩⟩

instance : Decidable b.IsBare := decidable_of_iff' _ iff_sizes

end IsBare

end Board

namespace Session

variable {σ : Type}

/-! ## Rows of tiles -/

/-- The tile of a row that a sweep comes to after so many others of that row. -/
def rowTile (width row col : Int) : Position := ⟨if row % 2 = 0 then col else width - 1 - col, row⟩

/-- The tile that a sweep over rows of some width comes to after so many steps: along one row to the right, along the
next one to the left. -/
def serpentine (width n : Int) : Position := rowTile width (n / width) (n % width)

theorem serpentine_rowTile {width row col : Int} (low : 0 ≤ col) (high : col < width) :
    serpentine width (row * width + col) = rowTile width row col := by
  have hwidth : width ≠ 0 := by omega
  have hrow : (row * width + col) / width = row := by
    rw [Int.add_comm, Int.add_mul_ediv_right _ _ hwidth, Int.ediv_eq_zero_of_lt low high, zero_add]
  have hcol : (row * width + col) % width = col := by
    rw [Int.add_comm, Int.add_mul_emod_self_right, Int.emod_eq_of_lt low high]
  rw [serpentine, hrow, hcol]

theorem rowTile_along {toRight : Bool} {row : Int} (sense : toRight = true ↔ row % 2 = 0) (width col : Int) :
    rowTile width row col + (sideways toRight).step = rowTile width row (col + 1) := by
  cases toRight with
  | true =>
    have even : row % 2 = 0 := sense.1 rfl
    simp only [rowTile, even, if_true]
    exact congrArg₂ Position.mk rfl (add_zero row)
  | false =>
    have odd : ¬ row % 2 = 0 := fun even => nomatch sense.2 even
    simp only [rowTile, odd, if_false]
    refine congrArg₂ Position.mk ?_ (add_zero row)
    show width - 1 - col + -1 = width - 1 - (col + 1)
    omega

theorem rowTile_down (width row : Int) :
    rowTile width row (width - 1) + Heading.down.step = rowTile width (row + 1) 0 := by
  refine congrArg₂ Position.mk ?_ rfl
  by_cases even : row % 2 = 0
  · have odd : ¬ (row + 1) % 2 = 0 := by omega
    simp [rowTile, Heading.step, even, odd]
  · have next : (row + 1) % 2 = 0 := by omega
    simp [rowTile, Heading.step, even, next]

/-- The last tile of the last row. -/
theorem rowTile_last (width height : Int) :
    rowTile width (height - 1) (width - 1) = ⟨if height % 2 = 1 then width - 1 else 0, height - 1⟩ := by
  refine congrArg₂ Position.mk ?_ rfl
  by_cases odd : height % 2 = 1
  · have even : (height - 1) % 2 = 0 := by omega
    simp [odd, even]
  · have uneven : ¬ (height - 1) % 2 = 0 := by omega
    simp [odd, uneven]

theorem rowTile_inside {b : Board} {row col : Int} :
    b.inBounds (rowTile b.width row col) = true ↔ (0 ≤ row ∧ row < b.height) ∧ 0 ≤ col ∧ col < b.width := by
  rw [Board.inBounds, inside_iff]
  unfold rowTile
  simp only
  split <;> omega

/-! ## Where a sweep stands -/

/-- A sweep has come to a tile of a row, and has stood on every tile that it has passed. -/
structure SweepsAt (u : Session σ) (row col : Int) (toRight : Bool) (left : Nat) : Prop where
  position : u.play.robot.position = rowTile u.play.board.width row col
  sense : toRight = true ↔ row % 2 = 0
  spent : row * u.play.board.width + col + left = sweepLimit
  visited : ∀ p, u.play.board.inBounds p = true → Passed toRight u.play.robot.position p → p ∈ u.play.board.visited

namespace SweepsAt

variable {u : Session σ} {row col : Int} {toRight : Bool} {left : Nat}

theorem bounds (h : u.SweepsAt row col toRight left) (hu : u.WellFormed) :
    (0 ≤ row ∧ row < u.play.board.height) ∧ 0 ≤ col ∧ col < u.play.board.width := by
  have hrobot := hu.robot_inside
  rw [h.position] at hrobot
  exact rowTile_inside.1 hrobot

/-- A sweep is done at the end of the last row and nowhere else. -/
theorem done_iff (h : u.SweepsAt row col toRight left) (hu : u.WellFormed) :
    u.sweepDone toRight = true ↔ row = u.play.board.height - 1 ∧ col = u.play.board.width - 1 := by
  have hbounds := h.bounds hu
  have hsense := h.sense
  simp only [sweepDone, h.position, rowTile, Bool.and_eq_true, decide_eq_true_eq]
  cases toRight with
  | true =>
    have even : row % 2 = 0 := hsense.1 rfl
    simp only [even, if_true, decide_eq_true_eq]
    omega
  | false =>
    have odd : ¬ row % 2 = 0 := fun even => Bool.false_ne_true (hsense.2 even)
    simp only [odd, if_false, Bool.false_eq_true, decide_eq_true_eq]
    omega

/-- Where it is not done there are tiles left. -/
theorem further (h : u.SweepsAt row col toRight left) (hu : u.WellFormed) (unfinished : u.sweepDone toRight = false) :
    row * u.play.board.width + col < u.play.board.width * u.play.board.height - 1 := by
  obtain ⟨⟨-, hrow⟩, -, hcol⟩ := h.bounds hu
  have hmore : ¬ (row = u.play.board.height - 1 ∧ col = u.play.board.width - 1) := fun last => by
    rw [(h.done_iff hu).2 last] at unfinished
    cases unfinished
  by_cases last : row = u.play.board.height - 1
  · subst last
    have hshort : col < u.play.board.width - 1 := by omega
    linarith [mul_comm u.play.board.width u.play.board.height]
  · have habove : row + 1 ≤ u.play.board.height - 1 := by omega
    have hrows := mul_le_mul_of_nonneg_right habove hu.board.width_pos.le
    linarith [mul_comm u.play.board.width u.play.board.height, hu.board.width_pos]

end SweepsAt

variable [WordSource σ]

/-! ## Steps on a bare board -/

/-- On a bare board no enemy is met. -/
theorem Outcome.collided_of_bare {ds : List Deed} {s t : Session σ} (h : Outcome ds s t)
    (bare : s.play.board.IsBare) : t.collided = s.collided := by
  cases h with
  | settled steps => exact steps.steps.collided
  | @reset t u steps met =>
    have hboard := (steps.steps.progress.trans met.progress).board
    have alone : u.meetsEnemy = false := by
      simp [meetsEnemy, (bare.develops hboard).isOccupied]
    cases met with
    | walk heading inside way meets => exact absurd meets (Bool.eq_false_iff.1 alone)
    | enemies deep awake meets => exact absurd meets (Bool.eq_false_iff.1 alone)

/-- A step onto an open tile spends a turn. -/
theorem turns_move {s : Session σ} {h : Heading} (opens : (Stride.mk s h).IsOpen)
    (clear : (s.move h.step).1.collided = false) : (s.move h.step).1.play.turns = s.play.turns + 1 := by
  obtain ⟨-, hturns, -⟩ := s.landing_spec h
  have hmove : (s.move h.step).1 = (s.landing h.step).endTurn := congrArg Prod.fst (move_of_clear opens clear).2
  have hended := endTurn_outcome (s.landing h.step)
  rw [← hmove] at hended
  have hstays := (hended.steps clear).unchanged (·.play.turns) fun hd hstep =>
    hstep.untouched.turns fun he => absurd (he ▸ hd) (by decide)
  exact hstays.trans hturns

omit [WordSource σ] in
theorem isBlocked_of_bare {s : Session σ} (bare : s.play.board.IsBare) (p : Position) : s.isBlocked p = false := by
  simp [isBlocked, Board.isBlockedUnless, bare.isBlocked]

namespace SweepsAt

variable {u : Session σ} {row col : Int} {toRight : Bool} {left : Nat}

/-- Along the row it comes to the next tile of the row. -/
theorem along (h : u.SweepsAt row col toRight (left + 1)) (hu : u.WellFormed)
    (opens : (Stride.mk u (sideways toRight)).IsOpen) (clear : (u.move (sideways toRight).step).1.collided = false) :
    (u.move (sideways toRight).step).1.SweepsAt row (col + 1) toRight left := by
  obtain ⟨hsteps, hlands, -⟩ := hu.step_onto opens clear
  have hboard := hsteps.progress.board
  have hspent := h.spent
  refine ⟨?_, h.sense, ?_, ?_⟩
  · rw [hlands, h.position, hboard.width, rowTile_along h.sense]
  · rw [hboard.width]
    push_cast at hspent
    omega
  · intro p inside passed
    rw [hlands] at passed
    rw [hboard.inBounds] at inside
    rcases passed_along passed with rfl | passed
    · rw [← hlands]
      exact (hu.steps hsteps).robot_visited
    · exact hboard.visited p (h.visited p inside passed)

/-- At the end of a row it turns to the next one. -/
theorem down (h : u.SweepsAt row col toRight (left + 1)) (hu : u.WellFormed) (bare : u.play.board.IsBare)
    (turns : u.sweepStep? toRight = some (Heading.down.step, !toRight))
    (closed : ¬ (Stride.mk u (sideways toRight)).IsOpen) (clear : (u.move Heading.down.step).1.collided = false) :
    (u.move Heading.down.step).1.SweepsAt (row + 1) 0 (!toRight) left := by
  obtain ⟨hsteps, hlands, -⟩ := hu.step_onto (sweepStep_open turns) clear
  have hboard := hsteps.progress.board
  have hspent := h.spent
  have outside : ¬ u.play.board.inBounds (u.play.robot.position + (sideways toRight).step) = true := fun inside =>
    closed ⟨inside, isBlocked_of_bare bare _⟩
  have hend : col = u.play.board.width - 1 := by
    obtain ⟨hrow, hcol⟩ := h.bounds hu
    rw [h.position, rowTile_along h.sense, rowTile_inside] at outside
    omega
  refine ⟨?_, ?_, ?_, ?_⟩
  · rw [hlands, h.position, hboard.width, hend, rowTile_down]
  · have hsense := h.sense
    cases toRight <;> simp at hsense ⊢ <;> omega
  · rw [hboard.width, add_mul, one_mul]
    push_cast at hspent
    omega
  · intro p inside passed
    rw [hlands] at passed
    rw [hboard.inBounds] at inside
    rcases passed_down passed with rfl | passed | ⟨beyond, -⟩
    · rw [← hlands]
      exact (hu.steps hsteps).robot_visited
    · exact hboard.visited p (h.visited p inside passed)
    · exact absurd (hu.inside_of_beyond inside beyond) outside

end SweepsAt

/-! ## The whole search -/

/-- How far a search has come that is stopped by nothing: what it has spent, and on which tile it is. -/
def OnCourse (s : Session σ) : SearchPhase × Session σ → Prop
  | (.homing _ left, u) => (u.play.turns : Int) + left = s.play.turns + homingLimit
  | (.sweeping toRight left, u) =>
    (u.play.turns : Int) + left =
        s.play.turns + (s.play.robot.position.x + s.play.robot.position.y) + sweepLimit ∧
      ∃ row col, u.SweepsAt row col toRight left

omit [WordSource σ] in
/-- With enough steps to get there the search comes to the corner. -/
theorem Homing.at_corner {s u : Session σ} {left : Nat} (home : s.Homing .left left u) (hu : u.WellFormed)
    (near : s.play.robot.position.x + s.play.robot.position.y ≤ homingLimit)
    (arrived : left = 0 ∨ u.atEdge Heading.left.step = true) : u.play.robot.position = ⟨0, 0⟩ := by
  have hrobot := hu.robot_inside
  have hdistance := home.distance
  have hrow := home.row rfl
  rw [Board.inBounds, inside_iff] at hrobot
  simp only [atEdge, Heading.step, Bool.or_eq_true, Bool.and_eq_true, beq_iff_eq, decide_eq_true_eq,
    Position.mk.injEq] at arrived
  have hx : u.play.robot.position.x = 0 := by omega
  have hy : u.play.robot.position.y = 0 := by omega
  exact congrArg₂ Position.mk hx hy

omit [WordSource σ] in
theorem SweepsAt.start {u : Session σ} (hu : u.WellFormed) (corner : u.play.robot.position = ⟨0, 0⟩) :
    u.SweepsAt 0 0 true sweepLimit := by
  refine ⟨corner, by simp, by simp, ?_⟩
  intro p inside passed
  rw [Board.inBounds, inside_iff] at inside
  rcases passed_first passed with rfl | before
  · exact hu.robot_visited
  · rw [corner] at before
    simp only at before
    omega

/-- A step of the search keeps it on its course. -/
theorem SearchStep.onCourse {s : Session σ} {c d : SearchPhase × Session σ} (hstep : SearchStep c d)
    (run : SearchRun (.start, s.searching) c) (hs : s.WellFormed) (bare : s.play.board.IsBare)
    (near : s.play.robot.position.x + s.play.robot.position.y ≤ homingLimit) (h : s.OnCourse c) : s.OnCourse d := by
  have hc : c.2.WellFormed := hs.searching.steps run.steps.steps
  have hbare : c.2.play.board.IsBare := bare.develops run.steps.steps.progress.board
  have hcovered := run.covered hs
  cases hstep with
  | @go phase next u step goes clear =>
    cases goes with
    | @home heading left _ further way =>
      have home : s.Homing heading (left + 1) u := hcovered
      have hturns := turns_move ⟨home_inside home.heading hc further, way⟩ clear
      simp only [OnCourse, hturns] at h ⊢
      push_cast at h ⊢
      omega
    | @sweep toRight onward left _ _ unfinished way =>
      simp only [OnCourse] at h ⊢
      obtain ⟨hspent, row, col, hat⟩ := h
      rcases sweepStep_cases way with ⟨rfl, rfl⟩ | ⟨rfl, rfl, closed⟩
      · have opens := sweepStep_open way
        rw [turns_move opens clear]
        push_cast at hspent ⊢
        exact ⟨by omega, row, col + 1, hat.along hc opens clear⟩
      · rw [turns_move (sweepStep_open way) clear]
        push_cast at hspent ⊢
        exact ⟨by omega, row + 1, 0, hat.down hc hbare way closed clear⟩
  | turn arrived => exact h
  | @corner left u arrived =>
    have home : s.Homing .left left u := hcovered
    have hcorner := home.at_corner hc near arrived
    have hdistance := home.distance
    rw [hcorner] at hdistance
    simp only [OnCourse] at h hdistance ⊢
    exact ⟨by omega, 0, 0, .start hc hcorner⟩

theorem SearchRun.onCourse {s : Session σ} {c : SearchPhase × Session σ} (hs : s.WellFormed)
    (bare : s.play.board.IsBare) (near : s.play.robot.position.x + s.play.robot.position.y ≤ homingLimit)
    (run : SearchRun (.start, s.searching) c) : s.OnCourse c := by
  induction run with
  | refl => exact rfl
  | tail run hstep ih => exact hstep.onCourse run hs bare near ih

/-! ## What it comes to -/

/-- A search that meets no enemy leaves the session as its last step does, apart from the completion of the level. -/
theorem execute_search_of_clear {s u : Session σ} {r : Reply} (search : s.searching.searchFrom = (u, r))
    (clear : u.collided = false) : ∃ t, s.execute .searchAll = (t, .ok r) ∧ t.play.board = u.play.board ∧
      t.play.robot = u.play.robot ∧ t.play.turns = u.play.turns := by
  have hperform : s.apart.perform .searchAll = (u.pausing false, .ok r) := by
    have hsearch : s.apart.searchAll = (s.searching.searchFrom.1.pausing false, s.searching.searchFrom.2) := rfl
    rw [perform_searchAll, hsearch, search]
  refine ⟨_, execute_answered s.searchAll_allowed hperform clear, ?_⟩
  simp only [report, checkCompletion]
  split
  · exact ⟨rfl, rfl, rfl⟩
  · split <;> exact ⟨rfl, rfl, rfl⟩

/-- On a bare board a search comes to the end of the board, or of its steps. -/
theorem searchFrom_of_bare {s : Session σ} (hs : s.WellFormed) (bare : s.play.board.IsBare) :
    ∃ toRight left u, SearchRun (.start, s.searching) (.sweeping toRight left, u) ∧
      (u.sweepDone toRight = true ∧
          s.searching.searchFrom = (u, .searchComplete (u.play.board.known.size - s.play.board.known.size)) ∨
        u.sweepDone toRight = false ∧ left = 0 ∧
          s.searching.searchFrom = (u, .searchIncomplete (u.play.board.known.size - s.play.board.known.size))) := by
  obtain ⟨c, run, hend⟩ := searchFrom_ends s.searching
  have hc : c.2.WellFormed := hs.searching.steps run.steps.steps
  have hbare : c.2.play.board.IsBare := bare.develops run.steps.steps.progress.board
  generalize s.searching.searchFrom = outcome at hend ⊢
  cases hend with
  | stuck stuck =>
    obtain ⟨heading, -, barred⟩ := stuck.facesObstacle hc
    rw [isBlocked_of_bare hbare] at barred
    cases barred
  | @met phase next u step goes meets =>
    obtain ⟨heading, rfl⟩ := goes.heading
    have apart : u.collided = false := run.steps.steps.collided
    rw [(move_outcome u heading).collided_of_bare hbare, apart] at meets
    cases meets
  | complete done => exact ⟨_, _, _, run, .inl ⟨done, rfl⟩⟩
  | incomplete unfinished => exact ⟨_, _, _, run, .inr ⟨unfinished, rfl, rfl⟩⟩

/-- On a bare board with no more than a hundred steps to its corner a search goes straight there and then sweeps the
board row by row, to the right and back to the left, for at most two hundred steps. It spends a turn for each step and
none besides. If that is enough for the whole board, it says that it is complete, the robot has stood on every tile,
and it is at the end of the last row; if not, it says that it is incomplete where the two hundredth step leads. -/
theorem search_serpentine {levels : List LevelSpec} {s : Session σ} (h : Reachable levels s)
    (bare : s.play.board.IsBare) (near : s.play.robot.position.x + s.play.robot.position.y ≤ 100) :
    ∃ t r, s.execute .searchAll = (t, .ok r) ∧
      (t.play.turns : Int) = s.play.turns + (s.play.robot.position.x + s.play.robot.position.y) +
        min 200 (s.play.board.width * s.play.board.height - 1) ∧
      (s.play.board.width * s.play.board.height - 1 ≤ 200 →
        r = .searchComplete (t.play.board.known.size - s.play.board.known.size) ∧
          (∀ p, s.play.board.inBounds p = true → p ∈ t.play.board.visited ∧ p ∈ t.play.board.known) ∧
          t.play.robot.position =
            ⟨if s.play.board.height % 2 = 1 then s.play.board.width - 1 else 0, s.play.board.height - 1⟩) ∧
      (200 < s.play.board.width * s.play.board.height - 1 →
        r = .searchIncomplete (t.play.board.known.size - s.play.board.known.size) ∧
          t.play.robot.position = serpentine s.play.board.width 200) := by
  have hs := h.wellFormed
  obtain ⟨toRight, left, u, run, hend⟩ := searchFrom_of_bare hs bare
  obtain ⟨hspent, row, col, hat⟩ := run.onCourse hs bare near
  have hu : u.WellFormed := hs.searching.steps run.steps.steps
  have hboard : s.play.board.Develops u.play.board := run.steps.steps.progress.board
  have hsteps : row * u.play.board.width + col + left = 200 := hat.spent
  have hturns : (u.play.turns : Int) + left =
      s.play.turns + (s.play.robot.position.x + s.play.robot.position.y) + 200 := hspent
  have clear : u.collided = false := run.steps.steps.collided
  rw [← hboard.width, ← hboard.height]
  rcases hend with ⟨done, hsearch⟩ | ⟨unfinished, rfl, hsearch⟩
  · obtain ⟨t, he, ht, hrobot, hspends⟩ := execute_search_of_clear hsearch clear
    obtain ⟨rfl, rfl⟩ := (hat.done_iff hu).1 done
    have hall : u.play.board.width * u.play.board.height - 1 + left = 200 := by
      rw [← hsteps]
      ring
    refine ⟨t, _, he, ?_, fun _ => ⟨by rw [ht], fun p inside => ?_, ?_⟩, fun short => ?_⟩
    · rw [hspends, min_eq_right (by omega)]
      omega
    · rw [← hboard.inBounds] at inside
      have hvisited := hat.visited p inside (passed_of_done done inside)
      rw [ht]
      exact ⟨hvisited, hu.board.visited_known p hvisited⟩
    · rw [hrobot, hat.position, rowTile_last]
    · omega
  · obtain ⟨t, he, ht, hrobot, hspends⟩ := execute_search_of_clear hsearch clear
    have hfurther := hat.further hu unfinished
    obtain ⟨-, low, high⟩ := hat.bounds hu
    have hplace : row * u.play.board.width + col = 200 := by simpa using hsteps
    refine ⟨t, _, he, ?_, fun long => ?_, fun _ => ⟨by rw [ht], ?_⟩⟩
    · rw [hspends, min_eq_left (by omega)]
      simpa using hturns
    · omega
    · rw [hrobot, hat.position, ← serpentine_rowTile low high, hplace]

/-! ## A meadow and a heath -/

/-- A level of two bare rows. -/
def meadow : LevelSpec where
  name := "Meadow"
  width := 3
  height := 2
  start := ⟨1, 1⟩
  width_pos := courtyard.width_pos
  height_pos := courtyard.height_pos
  placed_inside := by decide

/-- Two bare rows that are too long for a search. -/
def heath : LevelSpec where
  name := "Heath"
  width := 101
  height := 2
  start := ⟨2, 1⟩
  width_pos := Int.natCast_succ_pos 100
  height_pos := courtyard.height_pos
  placed_inside := by decide

/-- A meadow and a heath. -/
def grassland : Campaign where
  levels := [meadow, heath]
  loader := Loader.ofTexts []

/-- A session that starts on the meadow. -/
def onMeadow : Session Random.Twister :=
  ((start grassland ⟨Vector.replicate _ 0, 0⟩ 0).1.toOption).get (by decide)

/-- A session that starts on the heath. -/
def onHeath : Session Random.Twister :=
  ((start grassland ⟨Vector.replicate _ 0, 0⟩ 1).1.toOption).get (by decide)

theorem onMeadow_starts : (start grassland (⟨Vector.replicate _ 0, 0⟩ : Random.Twister) 0).1 = .ok onMeadow := rfl

theorem onHeath_starts : (start grassland (⟨Vector.replicate _ 0, 0⟩ : Random.Twister) 1).1 = .ok onHeath := rfl

/-- The meadow is swept to its lower left corner; on the heath two tiles are left. -/
theorem search_serpentine_grassland :
    (∃ t n, onMeadow.execute .searchAll = (t, .ok (.searchComplete n)) ∧ (t.play.turns : Int) = 7 ∧
        t.play.robot.position = ⟨0, 1⟩) ∧
      ∃ t n, onHeath.execute .searchAll = (t, .ok (.searchIncomplete n)) ∧ (t.play.turns : Int) = 203 ∧
        t.play.robot.position = ⟨1, 1⟩ := by
  refine ⟨?_, ?_⟩
  · have bare : onMeadow.play.board.IsBare := by decide
    obtain ⟨t, r, he, hturns, hcomplete, -⟩ := search_serpentine (.start rfl onMeadow_starts) bare (by decide)
    obtain ⟨rfl, -, hposition⟩ := hcomplete (by decide)
    exact ⟨t, _, he, hturns, hposition⟩
  · have bare : onHeath.play.board.IsBare := by decide
    obtain ⟨t, r, he, hturns, -, hincomplete⟩ := search_serpentine (.start rfl onHeath_starts) bare (by decide)
    obtain ⟨rfl, hposition⟩ := hincomplete (by decide)
    exact ⟨t, _, he, hturns, hposition⟩

end Session

end ScriptedRobot
