import ScriptedRobot.Proofs.Session.World

/-!
# The search over the board, step by step

A search has a phase: it goes up, then to the left, then it sweeps the board, with so many moves left.
`SearchStep` says how it gets on from one phase to the next, `SearchEnd` how it comes to its end and what
it answers then. `searchFrom_ends` says that a search is nothing else than such steps and such an end, and
`SearchStep.unique` that there is only one way for it to go.
-/

namespace ScriptedRobot.Session

open Relation

variable {σ : Type}

/-- How far a search has come. -/
inductive SearchPhase where
  /-- It goes up, or to the left, with so many moves left to get to its corner. -/
  | homing (h : Heading) (left : Nat)
  /-- It sweeps the board, with so many moves left. -/
  | sweeping (toRight : Bool) (left : Nat)

/-- The session as a search finds it: nothing has met, and the enemies stand still. -/
def searching (s : Session σ) : Session σ := s.apart.onPlay fun p => { p with enemiesPaused := true }

/-- A search starts by going up. -/
def SearchPhase.start : SearchPhase := .homing .up homingLimit

/-- What a search answers that cannot go on. -/
def SearchPhase.obstacleReply (discovered : Nat) : SearchPhase → Reply
  | homing _ _ => .searchStartBlocked
  | sweeping _ _ => .searchBlocked discovered

/-- The next move of a search, and what it is at after that move. -/
inductive SearchMove : SearchPhase → Session σ → Position → SearchPhase → Prop where
  /-- It goes on up, or to the left, while there are tiles. -/
  | home {h : Heading} {left : Nat} {s : Session σ} (further : s.atEdge h.step = false)
      (way : s.isBlocked (s.play.robot.position + h.step) = false) :
      SearchMove (.homing h (left + 1)) s h.step (.homing h left)
  /-- It goes on along the row, or down to the next one. -/
  | sweep {toRight onward : Bool} {left : Nat} {s : Session σ} {step : Position}
      (unfinished : s.sweepDone toRight = false) (way : s.sweepStep? toRight = some (step, onward)) :
      SearchMove (.sweeping toRight (left + 1)) s step (.sweeping onward left)

/-- There are tiles to go to and moves left, but an obstacle is in the way. -/
inductive Stuck : SearchPhase → Session σ → Prop where
  /-- The tile further up, or further to the left, is barred. -/
  | homing {h : Heading} {left : Nat} {s : Session σ} (further : s.atEdge h.step = false)
      (barred : s.isBlocked (s.play.robot.position + h.step) = true) : Stuck (.homing h (left + 1)) s
  /-- Neither along the row nor to the next one is there a way. -/
  | sweeping {toRight : Bool} {left : Nat} {s : Session σ} (unfinished : s.sweepDone toRight = false)
      (barred : s.sweepStep? toRight = none) : Stuck (.sweeping toRight (left + 1)) s

/-- There is an obstacle on a tile of the board next to the robot. -/
def FacesObstacle (s : Session σ) : Prop :=
  ∃ h : Heading, s.play.board.inBounds (s.play.robot.position + h.step) = true ∧
    s.isBlocked (s.play.robot.position + h.step) = true

/-- Only tiles of the board are barred. -/
theorem WellFormed.isBlocked_inside {s : Session σ} (hs : s.WellFormed) {p : Position}
    (h : s.isBlocked p = true) : s.play.board.inBounds p = true := by
  simp only [isBlocked, Board.isBlockedUnless, Board.isBlocked, Bool.and_eq_true, Bool.or_eq_true,
    decide_eq_true_eq] at h
  rcases h.2 with hblocker | ⟨hdoor, -⟩
  · exact hs.board.blockers_inside p hblocker
  · exact hs.board.doors_inside p hdoor

/-- The tiles that a sweep goes to: along the row, or else in the next row. -/
def sweepHeadings (toRight : Bool) : List Heading := [if toRight then .right else .left, .down]

/-- A sweep that is not done has a tile to go to on the board. -/
theorem WellFormed.sweep_inside {s : Session σ} (hs : s.WellFormed) {toRight : Bool}
    (unfinished : s.sweepDone toRight = false) :
    ∃ h ∈ sweepHeadings toRight, s.play.board.inBounds (s.play.robot.position + h.step) = true := by
  have hrobot := hs.robot_inside
  simp only [Board.inBounds, inside_iff] at hrobot
  simp only [sweepDone, Bool.and_eq_false_iff, decide_eq_false_iff_not] at unfinished
  simp only [sweepHeadings, List.mem_cons, List.not_mem_nil, or_false, exists_eq_or_imp, exists_eq_left,
    Board.inBounds, inside_iff, Position.add_x, Position.add_y]
  cases toRight with
  | true =>
    simp only [Heading.step, if_true, decide_eq_false_iff_not] at unfinished ⊢
    omega
  | false =>
    simp only [Heading.step, Bool.false_eq_true, if_false, decide_eq_false_iff_not] at unfinished ⊢
    omega

/-- A sweep without a next step finds every tile barred that it could go to. -/
theorem isBlocked_of_sweepStep {s : Session σ} {toRight : Bool} (barred : s.sweepStep? toRight = none)
    {h : Heading} (hh : h ∈ sweepHeadings toRight)
    (inside : s.play.board.inBounds (s.play.robot.position + h.step) = true) :
    s.isBlocked (s.play.robot.position + h.step) = true := by
  by_contra way
  simp only [Bool.not_eq_true] at way
  simp only [sweepHeadings, List.mem_cons, List.not_mem_nil, or_false] at hh
  rcases hh with rfl | rfl
  · cases toRight <;> grind [sweepStep?]
  · grind [sweepStep?]

/-- A search is only stuck where there is an obstacle: it never takes the edge of the board for one. -/
theorem Stuck.facesObstacle {phase : SearchPhase} {s : Session σ} (hs : s.WellFormed)
    (h : Stuck phase s) : s.FacesObstacle := by
  cases h with
  | @homing h _ _ _ barred => exact ⟨h, hs.isBlocked_inside barred, barred⟩
  | sweeping unfinished barred =>
    obtain ⟨h, hh, inside⟩ := hs.sweep_inside unfinished
    exact ⟨h, inside, isBlocked_of_sweepStep barred hh inside⟩

variable [WordSource σ]

/-- How a search gets on. -/
inductive SearchStep : SearchPhase × Session σ → SearchPhase × Session σ → Prop where
  /-- It moves, and meets no enemy. -/
  | go {phase next : SearchPhase} {s : Session σ} {step : Position} (goes : SearchMove phase s step next)
      (clear : (s.move step).1.collided = false) : SearchStep (phase, s) (next, (s.move step).1)
  /-- From the upper edge, or after the last move, it goes on to the left. -/
  | turn {left : Nat} {s : Session σ} (arrived : left = 0 ∨ s.atEdge Heading.up.step = true) :
      SearchStep (.homing .up left, s) (.homing .left left, s)
  /-- From the corner, or after the last move, it starts to sweep. -/
  | corner {left : Nat} {s : Session σ} (arrived : left = 0 ∨ s.atEdge Heading.left.step = true) :
      SearchStep (.homing .left left, s) (.sweeping true sweepLimit, s)

/-- How a search ends before which so many tiles were known, and what it answers. -/
inductive SearchEnd (before : Nat) : SearchPhase × Session σ → Session σ × Reply → Prop where
  /-- An obstacle is in the way. -/
  | stuck {phase : SearchPhase} {s : Session σ} (h : Stuck phase s) :
      SearchEnd before (phase, s) (s, phase.obstacleReply (s.play.board.known.size - before))
  /-- It moves, and meets an enemy. -/
  | met {phase next : SearchPhase} {s : Session σ} {step : Position} (goes : SearchMove phase s step next)
      (meets : (s.move step).1.collided = true) :
      SearchEnd before (phase, s) ((s.move step).1, .collision)
  /-- The last row has been swept. -/
  | complete {toRight : Bool} {left : Nat} {s : Session σ} (done : s.sweepDone toRight = true) :
      SearchEnd before (.sweeping toRight left, s)
        (s, .searchComplete (s.play.board.known.size - before))
  /-- There are no moves left. -/
  | incomplete {toRight : Bool} {s : Session σ} (unfinished : s.sweepDone toRight = false) :
      SearchEnd before (.sweeping toRight 0, s)
        (s, .searchIncomplete (s.play.board.known.size - before))

/-- A search in progress, and what it has come to some steps later. -/
abbrev SearchRun : SearchPhase × Session σ → SearchPhase × Session σ → Prop := ReflTransGen SearchStep

/-! ## What the loops do -/

/-- On the way to the corner the search arrives, or comes to its end. -/
theorem homeAlong_run (before : Nat) {h : Heading} {left : Nat} {s t : Session σ}
    {outcome : Except Reply Nat} (e : homeAlong h.step left s = (t, outcome)) :
    (∃ k, outcome = .ok k ∧ SearchRun (.homing h left, s) (.homing h k, t) ∧
        (k = 0 ∨ t.atEdge h.step = true)) ∨
      ∃ reply c, outcome = .error reply ∧ SearchRun (.homing h left, s) c ∧ SearchEnd before c (t, reply) := by
  induction left generalizing s with
  | zero =>
    cases e
    exact .inl ⟨0, rfl, .refl, .inl rfl⟩
  | succ left ih =>
    simp only [homeAlong] at e
    split at e
    · rename_i edge
      cases e
      exact .inl ⟨left + 1, rfl, .refl, .inr edge⟩
    · rename_i further
      simp only [Bool.not_eq_true] at further
      split at e
      · rename_i barred
        cases e
        exact .inr ⟨_, _, rfl, .refl, .stuck (.homing further barred)⟩
      · rename_i way
        simp only [Bool.not_eq_true] at way
        have goes : SearchMove (.homing h (left + 1)) s h.step (.homing h left) := .home further way
        split at e
        · rename_i meets
          cases e
          exact .inr ⟨_, _, rfl, .refl, .met goes meets⟩
        · rename_i clear
          simp only [Bool.not_eq_true] at clear
          have hgo : SearchStep (.homing h (left + 1), s) (.homing h left, (s.move h.step).1) := .go goes clear
          rcases ih e with ⟨k, rfl, hrun, arrived⟩ | ⟨reply, c, rfl, hrun, hend⟩
          · exact .inl ⟨k, rfl, .head hgo hrun, arrived⟩
          · exact .inr ⟨reply, c, rfl, .head hgo hrun, hend⟩

theorem sweep_run (before : Nat) (toRight : Bool) (left : Nat) (s : Session σ) :
    ∃ c, SearchRun (.sweeping toRight left, s) c ∧ SearchEnd before c (sweep before toRight left s) := by
  induction left generalizing toRight s with
  | zero =>
    unfold sweep
    simp only
    split
    · rename_i done
      exact ⟨_, .refl, .complete done⟩
    · rename_i unfinished
      exact ⟨_, .refl, .incomplete (by simpa using unfinished)⟩
  | succ left ih =>
    unfold sweep
    simp only
    split
    · rename_i done
      exact ⟨_, .refl, .complete done⟩
    · rename_i unfinished
      simp only [Bool.not_eq_true] at unfinished
      split
      · rename_i barred
        exact ⟨_, .refl, .stuck (.sweeping unfinished barred)⟩
      · rename_i step onward way
        have goes : SearchMove (.sweeping toRight (left + 1)) s step (.sweeping onward left) :=
          .sweep unfinished way
        split
        · rename_i meets
          exact ⟨_, .refl, .met goes meets⟩
        · rename_i clear
          simp only [Bool.not_eq_true] at clear
          obtain ⟨c, hrun, hend⟩ := ih onward (s.move step).1
          exact ⟨c, .head (.go goes clear) hrun, hend⟩

/-- A search goes step by step until it comes to its end. -/
theorem searchFrom_ends (s : Session σ) :
    ∃ c, SearchRun (.start, s) c ∧ SearchEnd s.play.board.known.size c s.searchFrom := by
  rcases hup : homeAlong Heading.up.step homingLimit s with ⟨t, outcome⟩
  rcases homeAlong_run s.play.board.known.size hup with ⟨k, rfl, hrun, arrived⟩ | ⟨reply, c, rfl, hrun, hend⟩
  · rcases hleft : homeAlong Heading.left.step k t with ⟨u, outcome⟩
    have hturn : SearchRun (.start, s) (.homing .left k, t) := hrun.tail (.turn arrived)
    rcases homeAlong_run s.play.board.known.size hleft with
      ⟨l, rfl, hrun', arrived'⟩ | ⟨reply, c, rfl, hrun', hend⟩
    · have hcorner : SearchRun (.start, s) (.sweeping true sweepLimit, u) :=
        (hturn.trans hrun').tail (.corner arrived')
      obtain ⟨c, hsweep, hend⟩ := sweep_run s.play.board.known.size true sweepLimit u
      refine ⟨c, hcorner.trans hsweep, ?_⟩
      simp only [searchFrom, hup, hleft]
      exact hend
    · refine ⟨c, hturn.trans hrun', ?_⟩
      simp only [searchFrom, hup, hleft]
      exact hend
  · refine ⟨c, hrun, ?_⟩
    simp only [searchFrom, hup]
    exact hend

/-! ## There is one way to go -/

omit [WordSource σ] in
theorem SearchMove.unique {phase next next' : SearchPhase} {s : Session σ} {step step' : Position}
    (h : SearchMove phase s step next) (k : SearchMove phase s step' next') :
    step = step' ∧ next = next' := by
  cases h with
  | home _ _ =>
    cases k
    exact ⟨rfl, rfl⟩
  | sweep _ way =>
    cases k with
    | sweep _ way' =>
      rw [way] at way'
      cases way'
      exact ⟨rfl, rfl⟩

omit [WordSource σ] in
theorem SearchMove.not_arrived {h : Heading} {left : Nat} {s : Session σ} {step : Position}
    {next : SearchPhase} (goes : SearchMove (.homing h left) s step next) :
    ¬ (left = 0 ∨ s.atEdge h.step = true) := by
  cases goes with
  | home further _ => simp [further]

omit [WordSource σ] in
theorem Stuck.not_arrived {h : Heading} {left : Nat} {s : Session σ} (stuck : Stuck (.homing h left) s) :
    ¬ (left = 0 ∨ s.atEdge h.step = true) := by
  cases stuck with
  | homing further _ => simp [further]

omit [WordSource σ] in
theorem SearchMove.not_stuck {phase next : SearchPhase} {s : Session σ} {step : Position}
    (goes : SearchMove phase s step next) : ¬ Stuck phase s := by
  intro stuck
  cases goes with
  | home _ way =>
    cases stuck with
    | homing _ barred =>
      rw [way] at barred
      cases barred
  | sweep _ way =>
    cases stuck with
    | sweeping _ barred =>
      rw [way] at barred
      cases barred

theorem SearchStep.unique : Relator.RightUnique (SearchStep (σ := σ)) := by
  intro a b c h k
  cases h with
  | go goes _ =>
    cases k with
    | go goes' _ =>
      obtain ⟨rfl, rfl⟩ := goes.unique goes'
      rfl
    | turn arrived => exact absurd arrived goes.not_arrived
    | corner arrived => exact absurd arrived goes.not_arrived
  | turn arrived =>
    cases k with
    | go goes _ => exact absurd arrived goes.not_arrived
    | turn _ => rfl
  | corner arrived =>
    cases k with
    | go goes _ => exact absurd arrived goes.not_arrived
    | corner _ => rfl

theorem SearchEnd.terminal {before : Nat} {c d : SearchPhase × Session σ} {outcome : Session σ × Reply}
    (h : SearchEnd before c outcome) : ¬ SearchStep c d := by
  intro hstep
  cases h with
  | stuck stuck =>
    cases hstep with
    | go goes _ => exact goes.not_stuck stuck
    | turn arrived => exact stuck.not_arrived arrived
    | corner arrived => exact stuck.not_arrived arrived
  | met goes meets =>
    cases hstep with
    | go goes' clear =>
      obtain ⟨rfl, -⟩ := goes.unique goes'
      rw [clear] at meets
      cases meets
    | turn arrived => exact goes.not_arrived arrived
    | corner arrived => exact goes.not_arrived arrived
  | complete done =>
    cases hstep with
    | go goes _ =>
      cases goes with
      | sweep unfinished _ =>
        rw [done] at unfinished
        cases unfinished
  | incomplete _ =>
    cases hstep with
    | go goes _ => cases goes

/-- A search that is stuck has come to its end, and to no other. -/
theorem SearchEnd.of_stuck {before : Nat} {phase : SearchPhase} {s : Session σ} {outcome : Session σ × Reply}
    (h : SearchEnd before (phase, s) outcome) (stuck : Stuck phase s) :
    outcome = (s, phase.obstacleReply (s.play.board.known.size - before)) := by
  cases h with
  | stuck _ => rfl
  | met goes _ => exact absurd stuck goes.not_stuck
  | complete done =>
    cases stuck with
    | sweeping unfinished _ =>
      rw [done] at unfinished
      cases unfinished
  | incomplete _ => cases stuck

/-- A search that can get stuck does, whatever else might be the case. -/
theorem searchFrom_of_stuck {s t : Session σ} {phase : SearchPhase} (run : SearchRun (.start, s) (phase, t))
    (stuck : Stuck phase t) :
    s.searchFrom = (t, phase.obstacleReply (t.play.board.known.size - s.play.board.known.size)) := by
  obtain ⟨c, hrun, hend⟩ := searchFrom_ends s
  have hstuck : SearchEnd s.play.board.known.size (phase, t) _ := .stuck stuck
  -- of two runs one goes on from where the other is, and neither goes on from its end
  have hsame : c = (phase, t) := by
    rcases ReflTransGen.total_of_right_unique SearchStep.unique hrun run with h | h
    · cases h using ReflTransGen.head_induction_on with
      | refl => rfl
      | head hstep _ => exact absurd hstep hend.terminal
    · cases h using ReflTransGen.head_induction_on with
      | refl => rfl
      | head hstep _ => exact absurd hstep hstuck.terminal
  rw [hsame] at hend
  exact hend.of_stuck stuck

/-! ## What a search does to the session -/

omit [WordSource σ] in
theorem SearchMove.heading {phase next : SearchPhase} {s : Session σ} {step : Position}
    (h : SearchMove phase s step next) : ∃ heading : Heading, step = heading.step := by
  cases h with
  | @home h _ _ _ _ => exact ⟨h, rfl⟩
  | sweep _ way => exact sweepStep_heading way

theorem SearchStep.steps {c d : SearchPhase × Session σ} (h : SearchStep c d) :
    StepsOf Deed.ofMove c.2 d.2 := by
  cases h with
  | go goes clear =>
    obtain ⟨heading, rfl⟩ := goes.heading
    exact (move_outcome _ heading).steps clear
  | turn _ => exact .refl
  | corner _ => exact .refl

theorem SearchRun.steps {c d : SearchPhase × Session σ} (h : SearchRun c d) :
    StepsOf Deed.ofMove c.2 d.2 := by
  induction h with
  | refl => exact .refl
  | tail _ hstep ih => exact ih.trans hstep.steps

end ScriptedRobot.Session
