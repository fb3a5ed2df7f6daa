import ScriptedRobot.Proofs.Session.Reachable

/-!
# The world stays in order

Whatever is done in a session, robot, items and everything else stay on the board, and the sets of tiles
fit together. While a level is played, what is known and where the robot has stood only grows.
-/

namespace ScriptedRobot.Session

variable {σ : Type}

/-- The board is well-formed and of the size of the level, and robot and items are on it. -/
structure WellFormed (s : Session σ) : Prop where
  board : s.play.board.WellFormed
  width : s.play.board.width = s.spec.width
  height : s.play.board.height = s.spec.height
  robot_inside : s.play.board.inBounds s.play.robot.position = true
  robot_visited : s.play.robot.position ∈ s.play.board.visited
  items_inside : ∀ i ∈ s.play.items.items, s.play.board.inBounds i.position = true

theorem items_inside_of_develops {b b' : Board} {i j : ItemStore} (hb : b.Develops b') (hi : i.Develops j)
    (h : ∀ x ∈ i.items, b.inBounds x.position = true) : ∀ x ∈ j.items, b'.inBounds x.position = true := by
  intro y hy
  obtain ⟨x, hx, hxy⟩ := hi.mem hy
  rw [hb.inBounds, hxy.position]
  exact h x hx

/-- A step that leaves the robot where it is keeps a session well-formed if it keeps the board so. -/
theorem WellFormed.progress {s t : Session σ} (h : s.WellFormed) (k : Progress s t)
    (position : t.play.robot.position = s.play.robot.position) (board : t.play.board.WellFormed) :
    t.WellFormed where
  board := board
  width := by rw [k.board.width, h.width, spec, spec, k.entry]
  height := by rw [k.board.height, h.height, spec, spec, k.entry]
  robot_inside := by rw [position, k.board.inBounds]; exact h.robot_inside
  robot_visited := by rw [position]; exact k.board.visited _ h.robot_visited
  items_inside := items_inside_of_develops k.board k.items h.items_inside

variable [WordSource σ]

theorem WellFormed.step {d : Deed} {s t : Session σ} (h : s.WellFormed) (hstep : Step s d t) :
    t.WellFormed := by
  have hp := hstep.progress
  cases hstep with
  | walk heading inside way clear =>
    have hboard := h.board.visit_revealAround inside
    exact
      { board := hboard
        width := hp.board.width.trans h.width
        height := hp.board.height.trans h.height
        robot_inside := by rw [hp.board.inBounds]; exact inside
        robot_visited := Board.mem_visited_visit_revealAround inside
        items_inside := items_inside_of_develops hp.board hp.items h.items_inside }
  | look => exact h.progress hp rfl (h.board.revealAll _)
  | collect found =>
    rename_i p i items
    obtain ⟨timeSlow, he⟩ := (s.onPlay fun play => { play with items := items }).applyItem_spec i
    refine h.progress hp ?_ ?_
    · rw [he]
      exact position_equip _ i
    · rw [he]
      exact h.board
  | claim => exact h.progress hp rfl (h.board.revealAll _)
  | scan way => exact h.progress hp rfl (h.board.revealAll [_])
  | door p wide => exact h.progress hp rfl (h.board.turnDoor p wide)
  | enemies deep awake clear => exact h.progress hp rfl (h.board.tickAll _ _ _)
  | _ => exact h.progress hp rfl h.board

theorem WellFormed.steps {s t : Session σ} (h : s.WellFormed) (k : Steps s t) : t.WellFormed := by
  induction k with
  | refl => exact h
  | tail _ hstep ih =>
    obtain ⟨d, hstep⟩ := hstep
    exact ih.step hstep

theorem Begun.wellFormed {levels : List LevelSpec} {s : Session σ} (hs : Grounded levels s) (h : s.Begun) :
    s.WellFormed := by
  obtain ⟨g, hb⟩ := h
  have hboard : s.play.board = (s.play.entry.begin g).1.board := congrArg Play.board hb
  have hrobot : s.play.robot.position = s.spec.start :=
    (congrArg (fun p => p.robot.position) hb).trans hs.entry.start
  have hitems : s.play.items.items = s.play.entry.items := congrArg (fun p => p.items.items) hb
  obtain ⟨hw, hh⟩ := s.play.entry.begin_size g
  have hwidth : s.play.board.width = s.spec.width := by rw [hboard]; exact hw
  have hheight : s.play.board.height = s.spec.height := by rw [hboard]; exact hh
  refine ⟨?_, hwidth, hheight, ?_, ?_, ?_⟩
  · rw [hboard]
    exact hs.entry.begin_wellFormed g
  · rw [Board.inBounds, hwidth, hheight, hrobot]
    exact s.spec.start_inside
  · rw [hrobot, hboard]
    exact s.play.entry.begin_visited g
  · intro i hi
    rw [Board.inBounds, hwidth, hheight]
    rw [hitems] at hi
    exact hs.entry.items_inside hi

theorem invariant_wellFormed (levels : List LevelSpec) :
    Invariant levels (WellFormed : Session σ → Prop) where
  begins := fun hs hb => hb.wellFormed hs
  step := fun _ hstep h => h.step hstep
  reread := fun {s} load h =>
    { board := h.board
      width := by rw [spec_withLoader]; exact h.width
      height := by rw [spec_withLoader]; exact h.height
      robot_inside := h.robot_inside
      robot_visited := h.robot_visited
      items_inside := h.items_inside }
  play := fun {s t} play h => by
    refine ⟨?_, ?_, ?_, ?_, ?_, ?_⟩
    · rw [play]; exact h.board
    · rw [spec, play]; exact h.width
    · rw [spec, play]; exact h.height
    · rw [play]; exact h.robot_inside
    · rw [play]; exact h.robot_visited
    · rw [play]; exact h.items_inside

theorem Reachable.wellFormed {levels : List LevelSpec} {s : Session σ} (h : Reachable levels s) :
    s.WellFormed := ((invariant_wellFormed levels).reachable h).2

/-- In every reachable session the world is in order, and a command that enters no level, neither
another one nor the same one again, only adds to what is known and moves what can move. -/
theorem world_in_order {levels : List LevelSpec} {s : Session σ} (h : Reachable levels s) :
    s.WellFormed ∧ ∀ (c : Command) (t : Session σ) (r : Reply), s.execute c = (t, .ok r) →
      s.destination? c = none → t.collided = false → s.play.board.Develops t.play.board := by
  refine ⟨h.wellFormed, ?_⟩
  intro c t r he stays clear
  have heffect := execute_effect s c
  rw [he] at heffect
  have hsteps : Steps s.apart t := heffect.steps stays clear
  exact hsteps.progress.board

theorem world_in_order_courtyard :
    inCourtyard.WellFormed ∧ ∀ (c : Command) (t : Session Random.Twister) (r : Reply),
      inCourtyard.execute c = (t, .ok r) → inCourtyard.destination? c = none → t.collided = false →
        inCourtyard.play.board.Develops t.play.board :=
  world_in_order (.start rfl inCourtyard_starts)

end ScriptedRobot.Session
