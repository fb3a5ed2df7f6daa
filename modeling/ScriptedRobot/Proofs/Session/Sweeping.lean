import Mathlib
import ScriptedRobot.Proofs.Session.Searching

/-!
# What a search leaves out

A search that says it is complete has come to the end of the last row, and that is all it looks at. It leaves
out what lies before the tile where it had spent its steps on the way to the corner, and where it turned to the
next row at an obstacle it leaves out what lies beyond the obstacle in both rows. `LeavesOut` lists the two;
`Covered` is what holds at every step of the search, and from it every other tile is known at the end.
-/

namespace ScriptedRobot.Session

variable {σ : Type}

/-- The way a sweep goes along its row. -/
def sideways (toRight : Bool) : Heading := if toRight then .right else .left

/-- The second tile lies further along than the first, in whatever row. -/
def Beyond (toRight : Bool) (here p : Position) : Prop := if toRight then here.x < p.x else p.x < here.x

/-- The second tile lies in an earlier row than the first, or in its row and not further along. -/
def Passed (toRight : Bool) (here p : Position) : Prop := p.y < here.y ∨ p.y = here.y ∧ ¬ Beyond toRight here p

/-- What has been passed after a step along the row is the tile that it leads to and what had been passed. -/
theorem passed_along {toRight : Bool} {here p : Position} (h : Passed toRight (here + (sideways toRight).step) p) :
    p = here + (sideways toRight).step ∨ Passed toRight here p := by
  obtain ⟨x, y⟩ := p
  obtain ⟨x', y'⟩ := here
  have hsum : (⟨x, y⟩ : Position) = ⟨x', y'⟩ + (sideways toRight).step ↔
      x = x' + (sideways toRight).step.x ∧ y = y' + (sideways toRight).step.y := Position.mk.injEq .. ▸ Iff.rfl
  rw [hsum]
  unfold Passed Beyond at *
  cases toRight <;> simp [sideways, Heading.step] at h ⊢ <;> omega

/-- What has been passed after a step to the next row is the tile that it leads to, what had been passed, and
what lies further along in the two rows. -/
theorem passed_down {toRight : Bool} {here p : Position} (h : Passed (!toRight) (here + Heading.down.step) p) :
    p = here + Heading.down.step ∨ Passed toRight here p ∨
      Beyond toRight here p ∧ (p.y = here.y ∨ p.y = here.y + 1) := by
  obtain ⟨x, y⟩ := p
  obtain ⟨x', y'⟩ := here
  have hsum : (⟨x, y⟩ : Position) = ⟨x', y'⟩ + Heading.down.step ↔
      x = x' + Heading.down.step.x ∧ y = y' + Heading.down.step.y := Position.mk.injEq .. ▸ Iff.rfl
  rw [hsum]
  unfold Passed Beyond at *
  cases toRight <;> simp [Heading.step] at h ⊢ <;> omega

theorem passed_first {here p : Position} (h : Passed true here p) :
    p = here ∨ p.y < here.y ∨ p.y = here.y ∧ p.x < here.x := by
  obtain ⟨x, y⟩ := p
  obtain ⟨x', y'⟩ := here
  rw [Position.mk.injEq]
  unfold Passed Beyond at h
  simp at h ⊢
  omega

/-- The next step of a sweep goes along the row, or down because the row is at its end or barred there. -/
theorem sweepStep_cases {s : Session σ} {toRight onward : Bool} {step : Position}
    (way : s.sweepStep? toRight = some (step, onward)) :
    (step = (sideways toRight).step ∧ onward = toRight) ∨
      (step = Heading.down.step ∧ onward = !toRight ∧ ¬ (Stride.mk s (sideways toRight)).IsOpen) := by
  have hside : (if toRight then Heading.right.step else Heading.left.step) = (sideways toRight).step := by
    cases toRight <;> rfl
  unfold sweepStep? at way
  simp only [hside] at way
  split at way
  · cases way
    exact .inl ⟨rfl, rfl⟩
  · rename_i closed
    split at way
    · cases way
      refine .inr ⟨rfl, rfl, ?_⟩
      rintro ⟨inside, clear⟩
      have hinside : s.play.board.inBounds (s.play.robot.position + (sideways toRight).step) = true := inside
      have hclear : s.isBlocked (s.play.robot.position + (sideways toRight).step) = false := clear
      exact closed (by simp [hinside, hclear])
    · cases way

/-- If there is a tile further along the row, the one next to the robot is on the board. -/
theorem WellFormed.inside_of_beyond {s : Session σ} (hs : s.WellFormed) {toRight : Bool} {p : Position}
    (inside : s.play.board.inBounds p = true) (beyond : Beyond toRight s.play.robot.position p) :
    s.play.board.inBounds (s.play.robot.position + (sideways toRight).step) = true := by
  have hrobot := hs.robot_inside
  rw [Board.inBounds, inside_iff] at hrobot inside ⊢
  unfold Beyond at beyond
  cases toRight <;> simp [sideways, Heading.step] at beyond ⊢ <;> omega

variable [WordSource σ]

/-- What a search can leave out. -/
inductive LeavesOut (s : Session σ) (p : Position) : Prop where
  /-- The steps to the corner are spent, and the sweep starts further down, or further along. -/
  | home {u : Session σ} (run : SearchRun (.start, s.searching) (.homing .left 0, u))
      (before : p.y < u.play.robot.position.y ∨ p.y = u.play.robot.position.y ∧ p.x < u.play.robot.position.x) :
      LeavesOut s p
  /-- The sweep turns to the next row at an obstacle, and the tile lies beyond it in one of the two rows. -/
  | obstacle {toRight : Bool} {left : Nat} {u : Session σ}
      (run : SearchRun (.start, s.searching) (.sweeping toRight left, u))
      (barred : u.isBlocked (u.play.robot.position + (sideways toRight).step) = true)
      (turns : u.sweepStep? toRight = some (Heading.down.step, !toRight))
      (row : p.y = u.play.robot.position.y ∨ p.y = u.play.robot.position.y + 1)
      (beyond : Beyond toRight u.play.robot.position p) : LeavesOut s p

/-- Every tile that a search has passed is known, or the search leaves it out. -/
def SweptTo (s : Session σ) (toRight : Bool) (u : Session σ) : Prop :=
  ∀ p, u.play.board.inBounds p = true → Passed toRight u.play.robot.position p →
    p ∈ u.play.board.known ∨ s.LeavesOut p

/-- How a search is on its way to its corner: each step takes it one tile nearer, and it has come to the first
row before it goes to the left, unless its steps are spent. -/
structure Homing (s : Session σ) (h : Heading) (left : Nat) (u : Session σ) : Prop where
  heading : h = .up ∨ h = .left
  distance : (left : Int) + s.play.robot.position.x + s.play.robot.position.y =
    homingLimit + u.play.robot.position.x + u.play.robot.position.y
  row : h = .left → left ≠ 0 → u.play.robot.position.y ≤ 0

/-- What a search has made sure of by the time that it has come to some point. -/
def Covered (s : Session σ) : SearchPhase × Session σ → Prop
  | (.homing h left, u) => s.Homing h left u
  | (.sweeping toRight _, u) => s.SweptTo toRight u

/-- A step that meets no enemy leads to a tile that is known then. -/
theorem WellFormed.step_onto {u : Session σ} (hu : u.WellFormed) {h : Heading} (opens : (Stride.mk u h).IsOpen)
    (clear : (u.move h.step).1.collided = false) : Steps u (u.move h.step).1 ∧
      (u.move h.step).1.play.robot.position = u.play.robot.position + h.step ∧
        u.play.robot.position + h.step ∈ (u.move h.step).1.play.board.known := by
  have hsteps := ((move_outcome u h).steps clear).steps
  have hlands : (u.move h.step).1.play.robot.position = u.play.robot.position + h.step :=
    Stride.lands (v := ⟨u, h⟩) opens clear
  have hnext := hu.steps hsteps
  have hknown := hnext.board.visited_known _ hnext.robot_visited
  rw [hlands] at hknown
  exact ⟨hsteps, hlands, hknown⟩

/-- What a search has passed before a step it has covered after it, too. -/
theorem SweptTo.keep {s u v : Session σ} {toRight : Bool} (h : s.SweptTo toRight u) (k : Steps u v) {p : Position}
    (inside : u.play.board.inBounds p = true) (passed : Passed toRight u.play.robot.position p) :
    p ∈ v.play.board.known ∨ s.LeavesOut p := by
  rcases h p inside passed with known | out
  · exact .inl (k.progress.board.known p known)
  · exact .inr out

/-- A step along the row comes to one more tile. -/
theorem SweptTo.along {s u : Session σ} {toRight : Bool} (h : s.SweptTo toRight u) (hu : u.WellFormed)
    (opens : (Stride.mk u (sideways toRight)).IsOpen) (clear : (u.move (sideways toRight).step).1.collided = false) :
    s.SweptTo toRight (u.move (sideways toRight).step).1 := by
  intro p inside passed
  obtain ⟨hsteps, hlands, hknown⟩ := hu.step_onto opens clear
  rw [hlands] at passed
  rw [hsteps.progress.board.inBounds] at inside
  rcases passed_along passed with rfl | passed
  · exact .inl hknown
  · exact h.keep hsteps inside passed

/-- When the sweep turns to the next row, what it has not come to in either row is beyond an obstacle. -/
theorem SweptTo.down {s u : Session σ} {toRight : Bool} {left : Nat} (h : s.SweptTo toRight u) (hu : u.WellFormed)
    (run : SearchRun (.start, s.searching) (.sweeping toRight left, u))
    (turns : u.sweepStep? toRight = some (Heading.down.step, !toRight))
    (closed : ¬ (Stride.mk u (sideways toRight)).IsOpen) (clear : (u.move Heading.down.step).1.collided = false) :
    s.SweptTo (!toRight) (u.move Heading.down.step).1 := by
  intro p inside passed
  obtain ⟨hsteps, hlands, hknown⟩ := hu.step_onto (sweepStep_open turns) clear
  rw [hlands] at passed
  rw [hsteps.progress.board.inBounds] at inside
  rcases passed_down passed with rfl | passed | ⟨beyond, row⟩
  · exact .inl hknown
  · exact h.keep hsteps inside passed
  · have hbarred : u.isBlocked (u.play.robot.position + (sideways toRight).step) = true := by
      by_contra free
      exact closed ⟨hu.inside_of_beyond inside beyond, Bool.eq_false_iff.2 free⟩
    exact .inr (.obstacle run hbarred turns row beyond)

/-- A step to the corner takes the search one tile nearer. -/
theorem Homing.go {s u : Session σ} {h : Heading} {left : Nat} (home : s.Homing h (left + 1) u) (hu : u.WellFormed)
    (further : u.atEdge h.step = false) (way : u.isBlocked (u.play.robot.position + h.step) = false)
    (clear : (u.move h.step).1.collided = false) : s.Homing h left (u.move h.step).1 := by
  have opens : (Stride.mk u h).IsOpen := ⟨home_inside home.heading hu further, way⟩
  obtain ⟨-, hlands, -⟩ := hu.step_onto opens clear
  have hdistance := home.distance
  refine ⟨home.heading, ?_, ?_⟩
  · rw [hlands]
    rcases home.heading with rfl | rfl <;> simp only [Heading.step, Position.add_x, Position.add_y] <;> omega
  · rintro rfl -
    have hrow := home.row rfl (Nat.succ_ne_zero left)
    rw [hlands]
    simpa [Heading.step] using hrow

/-- The sweep starts in the corner, or further on because the steps to the corner are spent. -/
theorem Homing.corner {s u : Session σ} {left : Nat} (home : s.Homing .left left u) (hu : u.WellFormed)
    (run : SearchRun (.start, s.searching) (.homing .left left, u))
    (arrived : left = 0 ∨ u.atEdge Heading.left.step = true) : s.SweptTo true u := by
  intro p inside passed
  rcases passed_first passed with rfl | before
  · exact .inl (hu.board.visited_known _ hu.robot_visited)
  · by_cases spent : left = 0
    · subst spent
      exact .inr (.home run before)
    · -- with steps left it has arrived, and there is no tile before the corner
      have hrow := home.row rfl spent
      have hedge : u.play.robot.position.x ≤ 0 := by
        rcases arrived with hspent | edge
        · exact absurd hspent spent
        · simpa [atEdge, Heading.step] using edge
      rw [Board.inBounds, inside_iff] at inside
      omega

/-- What a search has covered stays covered. -/
theorem SearchStep.covered {s : Session σ} {c d : SearchPhase × Session σ} (hstep : SearchStep c d)
    (run : SearchRun (.start, s.searching) c) (hc : c.2.WellFormed) (h : Covered s c) : Covered s d := by
  cases hstep with
  | go goes clear =>
    cases goes with
    | home further way => exact Homing.go h hc further way clear
    | sweep unfinished way =>
      rcases sweepStep_cases way with ⟨rfl, rfl⟩ | ⟨rfl, rfl, closed⟩
      · exact SweptTo.along h hc (sweepStep_open way) clear
      · exact SweptTo.down h hc run way closed clear
  | turn arrived =>
    have home : s.Homing .up _ _ := h
    refine ⟨.inr rfl, home.distance, fun _ left => ?_⟩
    rcases arrived with spent | edge
    · exact absurd spent left
    · simpa [atEdge, Heading.step] using edge
  | corner arrived => exact Homing.corner h hc run arrived

theorem SearchRun.covered {s : Session σ} {c : SearchPhase × Session σ} (hs : s.WellFormed)
    (run : SearchRun (.start, s.searching) c) : Covered s c := by
  induction run with
  | refl => exact ⟨.inl rfl, rfl, fun hleft => nomatch hleft⟩
  | tail run hstep ih => exact hstep.covered run (hs.searching.steps (SearchRun.steps run).steps) ih

/-- A search that says it is complete stands at the end of the last row. -/
theorem execute_search_complete {s t : Session σ} {n : Nat}
    (h : s.execute .searchAll = (t, .ok (.searchComplete n))) : ∃ toRight left u,
      SearchRun (.start, s.searching) (.sweeping toRight left, u) ∧ u.sweepDone toRight = true ∧
        t.play.board = u.play.board := by
  have hperform := s.apart.perform_searchAll
  by_cases meets : s.apart.searchAll.1.collided = true
  · rw [execute_met s.searchAll_allowed hperform meets] at h
    cases h
  · rw [execute_answered s.searchAll_allowed hperform (by simpa using meets)] at h
    obtain ⟨ht, hreply⟩ := Prod.mk.inj h
    have hboard : t.play.board = s.searching.searchFrom.1.play.board := by
      obtain ⟨-, -, hboard, -⟩ := s.apart.searchAll.1.checkCompletion_untouched
      rw [← ht]
      exact hboard
    have hcomplete : s.searching.searchFrom.2 = .searchComplete n := Except.ok.inj hreply
    obtain ⟨c, run, hend⟩ := searchFrom_ends s.searching
    rw [hboard]
    generalize s.searching.searchFrom = outcome at hend hcomplete
    cases hend with
    | @complete toRight left u done => exact ⟨toRight, left, u, run, done, rfl⟩
    | @stuck phase _ _ => cases phase <;> cases hcomplete
    | _ => cases hcomplete

omit [WordSource σ] in
/-- At the end of the last row every tile of the board has been passed. -/
theorem passed_of_done {s : Session σ} {toRight : Bool} (done : s.sweepDone toRight = true) {p : Position}
    (inside : s.play.board.inBounds p = true) : Passed toRight s.play.robot.position p := by
  rw [Board.inBounds, inside_iff] at inside
  simp only [sweepDone, Bool.and_eq_true, decide_eq_true_eq] at done
  unfold Passed Beyond
  cases toRight <;> simp at done ⊢ <;> omega

/-- A search that leaves something out has met an obstacle, or has a long way to its corner. -/
theorem LeavesOut.cause {s : Session σ} {p : Position} (hs : s.WellFormed) (h : s.LeavesOut p)
    (inside : s.play.board.inBounds p = true) : (∃ q, s.play.board.isBlocked q = true) ∨
      (homingLimit : Int) < s.play.robot.position.x + s.play.robot.position.y := by
  cases h with
  | @home u run before =>
    have home : s.Homing .left 0 u := run.covered hs
    have hdistance := home.distance
    have hu : u.WellFormed := hs.searching.steps run.steps.steps
    have hrobot := hu.robot_inside
    rw [Board.inBounds, inside_iff] at inside hrobot
    refine .inr ?_
    omega
  | @obstacle toRight left u run barred turns row beyond =>
    have hsame : u.play.board.isBlocked = s.play.board.isBlocked :=
      run.steps.unchanged (·.play.board.isBlocked) fun hd hstep =>
        hstep.untouched.obstacles fun he => absurd (he ▸ hd) (by decide)
    simp only [isBlocked, Board.isBlockedUnless, Bool.and_eq_true] at barred
    refine .inl ⟨u.play.robot.position + (sideways toRight).step, ?_⟩
    rw [← hsame]
    exact barred.2

/-- When a search says that it is complete, every tile is known but for those that it leaves out. On a board
without obstacles, with no more than `homingLimit` steps to the corner, it leaves out none. -/
theorem complete_but_leftOut {levels : List LevelSpec} {s t : Session σ} {n : Nat} (h : Reachable levels s)
    (answered : s.execute .searchAll = (t, .ok (.searchComplete n))) :
    (∀ p, t.play.board.inBounds p = true → p ∈ t.play.board.known ∨ s.LeavesOut p) ∧
      ((∀ q, s.play.board.isBlocked q = false) →
        s.play.robot.position.x + s.play.robot.position.y ≤ homingLimit →
        ∀ p, t.play.board.inBounds p = true → p ∈ t.play.board.known) := by
  obtain ⟨toRight, left, u, run, done, hboard⟩ := execute_search_complete answered
  have hswept : s.SweptTo toRight u := run.covered h.wellFormed
  have hall : ∀ p, t.play.board.inBounds p = true → p ∈ t.play.board.known ∨ s.LeavesOut p := by
    intro p inside
    rw [hboard] at inside ⊢
    exact hswept p inside (passed_of_done done inside)
  refine ⟨hall, ?_⟩
  intro clear near p inside
  rcases hall p inside with known | out
  · exact known
  · rw [hboard, run.steps.steps.progress.board.inBounds] at inside
    rcases out.cause h.wellFormed inside with ⟨q, barred⟩ | far
    · rw [clear q] at barred
      cases barred
    · omega

/-! ## A hedge -/

/-- A level of two rows with a hedge in the upper one. -/
def hedge : LevelSpec where
  name := "Hedge"
  width := 4
  height := 2
  start := ⟨0, 0⟩
  blockers := [⟨2, 0⟩]
  width_pos := four_pos
  height_pos := courtyard.height_pos
  placed_inside := by decide

/-- A session that starts at the hedge. -/
def atHedge : Session Random.Twister :=
  ((start ⟨[hedge], Loader.ofTexts [], none⟩ ⟨Vector.replicate _ 0, 0⟩ 0).1.toOption).get (by decide)

theorem atHedge_starts :
    (start ⟨[hedge], Loader.ofTexts [], none⟩ (⟨Vector.replicate _ 0, 0⟩ : Random.Twister) 0).1 = .ok atHedge := rfl

theorem atHedge_searched :
    atHedge.execute .searchAll = ((atHedge.execute .searchAll).1, .ok (.searchComplete 3)) := by
  have answer : (atHedge.execute .searchAll).2 = .ok (.searchComplete 3) := by decide +kernel
  rw [← answer]

/-- The two tiles behind the hedge stay unknown, so the search leaves them out. -/
theorem complete_but_leftOut_hedge : atHedge.LeavesOut ⟨3, 0⟩ ∧ atHedge.LeavesOut ⟨3, 1⟩ := by
  have out : ∀ p : Position, (atHedge.execute .searchAll).1.play.board.inBounds p = true →
      p ∉ (atHedge.execute .searchAll).1.play.board.known → atHedge.LeavesOut p := by
    intro p inside unknown
    have hall := (complete_but_leftOut (.start rfl atHedge_starts) atHedge_searched).1
    exact (hall p inside).resolve_left unknown
  exact ⟨out ⟨3, 0⟩ (by decide +kernel) (by decide +kernel), out ⟨3, 1⟩ (by decide +kernel) (by decide +kernel)⟩

/-- A search that says it is complete need not have made every open tile known. -/
theorem complete_untrue : Reachable [hedge] atHedge ∧
    (atHedge.execute .searchAll).2 = .ok (.searchComplete 3) ∧
    (atHedge.execute .searchAll).1.play.board.inBounds ⟨3, 0⟩ = true ∧
    (atHedge.execute .searchAll).1.play.board.isBlocked ⟨3, 0⟩ = false ∧
    ⟨3, 0⟩ ∉ (atHedge.execute .searchAll).1.play.board.known :=
  ⟨.start rfl atHedge_starts, by decide +kernel, by decide +kernel, by decide +kernel, by decide +kernel⟩

end ScriptedRobot.Session
