import ScriptedRobot.Proofs.Board.Advancing
import ScriptedRobot.Proofs.Session.Finished
import ScriptedRobot.Proofs.Session.Obstacle

/-!
# The steps that a search takes

A search is a walk: one step after the other, each onto an open tile, until it is over or an enemy is met.
`homingPath` and `sweepingPath` are the headings of these steps, `strides` pairs each heading of a path with
the session that finds it, and `searchAll_walk` says that a search leads where its path leads. What a step onto
an open tile does is said once, by `move_of_open`: the robot arrives, perhaps grabs, and its turn ends.
-/

namespace ScriptedRobot

/-- A step of the robot and the session that finds it. -/
structure Stride (σ : Type) where
  /-- The session before the step. -/
  before : Session σ
  /-- The way the robot goes. -/
  heading : Heading

namespace Stride

variable {σ : Type}

/-- The tile that the step leads to. -/
def target (v : Stride σ) : Position := v.before.play.robot.position + v.heading.step

/-- The tile is on the board and not barred at that moment. -/
def IsOpen (v : Stride σ) : Prop :=
  v.before.play.board.inBounds v.target = true ∧ v.before.isBlocked v.target = false

variable [WordSource σ]

/-- The session after the step. -/
def after (v : Stride σ) : Session σ := (v.before.move v.heading.step).1

end Stride

namespace Session

variable {σ : Type}

/-! ## What small steps leave alone -/

/-- What a step leaves as it is unless it is of the kind that changes just that. -/
structure Untouched (d : Deed) (s t : Session σ) : Prop where
  turns : d ≠ .spend → t.play.turns = s.play.turns
  paused : d ≠ .pause → t.play.enemiesPaused = s.play.enemiesPaused
  enemies : d ≠ .enemies → t.play.board.enemies = s.play.board.enemies
  rng : d ≠ .enemies → t.rng = s.rng
  stunned : d ≠ .stun → d ≠ .tick → t.play.stunned = s.play.stunned
  removed : d ≠ .remove → d ≠ .tick → t.play.removed = s.play.removed
  obstacles : d ≠ .door → t.play.board.isBlocked = s.play.board.isBlocked

theorem Untouched.refl (d : Deed) (s : Session σ) : Untouched d s s :=
  ⟨fun _ => rfl, fun _ => rfl, fun _ => rfl, fun _ => rfl, fun _ _ => rfl, fun _ _ => rfl, fun _ => rfl⟩

theorem isBlocked_revealAll (b : Board) (ps : List Position) : (b.revealAll ps).isBlocked = b.isBlocked := by
  obtain ⟨known, he, -⟩ := b.revealAll_spec ps
  rw [he]
  rfl

theorem stepOnto_enemies (s : Session σ) (p : Position) :
    (s.stepOnto p).play.board.enemies = s.play.board.enemies := by
  have hvisit : (s.play.board.visit p).enemies = s.play.board.enemies := by
    unfold Board.visit
    split <;> rfl
  exact (Board.revealAll_enemies _ _).trans hvisit

theorem stepOnto_isBlocked (s : Session σ) (p : Position) :
    (s.stepOnto p).play.board.isBlocked = s.play.board.isBlocked := by
  have hvisit : (s.play.board.visit p).isBlocked = s.play.board.isBlocked := by
    unfold Board.visit
    split <;> rfl
  exact (isBlocked_revealAll _ _).trans hvisit

/-- Enemies that move change nothing but where they are. -/
theorem moveEnemies_play [WordSource σ] (s : Session σ) : ∃ enemies, s.moveEnemies.play =
    { s.play with board := { s.play.board with enemies := enemies } } := by
  obtain ⟨enemies, hmoved⟩ := Board.tickAll_others (some s.play.robot.position)
    ((List.range s.play.board.enemies.length).filter fun i => !s.play.stunned.has i) s.play.board s.rng
  exact ⟨enemies, congrArg (fun b => { s.play with board := b }) hmoved⟩

theorem Step.untouched [WordSource σ] {d : Deed} {s t : Session σ} (h : Step s d t) : Untouched d s t := by
  have same := Untouched.refl d s
  cases h with
  | spend => exact { same with turns := fun hd => absurd rfl hd }
  | look =>
    exact { same with
      enemies := fun _ => Board.revealAll_enemies _ _
      obstacles := fun _ => isBlocked_revealAll _ _ }
  | walk h inside way clear =>
    exact { same with
      enemies := fun _ => stepOnto_enemies _ _
      obstacles := fun _ => stepOnto_isBlocked _ _ }
  | collect found =>
    rename_i p i items
    obtain ⟨timeSlow, he⟩ := (s.onPlay fun play => { play with items := items }).applyItem_spec i
    rw [he]
    exact { same with }
  | claim =>
    exact { same with
      enemies := fun _ => Board.revealAll_enemies _ _
      obstacles := fun _ => isBlocked_revealAll _ _ }
  | scan way =>
    exact { same with
      enemies := fun _ => Board.revealAll_enemies _ [_]
      obstacles := fun _ => isBlocked_revealAll _ [_] }
  | door p wide =>
    exact { same with
      enemies := fun _ => Board.turnDoor_enemies _ p wide
      obstacles := fun hd => absurd rfl hd }
  | stun armed inside found => exact { same with stunned := fun hd => absurd rfl hd }
  | remove armed inside blocked => exact { same with removed := fun hd => absurd rfl hd }
  | enemies deep awake clear =>
    obtain ⟨others, hmoved⟩ := s.moveEnemies_play
    have hobstacles : s.moveEnemies.play.board.isBlocked = s.play.board.isBlocked := by
      rw [hmoved]
      rfl
    exact { same with
      enemies := fun hd => absurd rfl hd
      rng := fun hd => absurd rfl hd
      obstacles := fun _ => hobstacles }
  | tick => exact { same with stunned := fun _ hd => absurd rfl hd, removed := fun _ hd => absurd rfl hd }
  | pause paused => exact { same with paused := fun hd => absurd rfl hd }
  | _ => exact { same with }

/-! ## One step -/

/-- The robot has stepped onto the next tile, at the expense of a turn. -/
def arrival (s : Session σ) (step : Position) : Session σ :=
  (s.onPlay fun p => { p with turns := p.turns + 1 }).stepOnto (s.play.robot.position + step)

/-- The robot has arrived on the next tile, and has grabbed there if it does so at every step. -/
def landing (s : Session σ) (step : Position) : Session σ :=
  if (s.arrival step).play.robot.autoGrab && (s.arrival step).hasGrabbable then (s.arrival step).grab.1
  else s.arrival step

section Walking

variable [WordSource σ]

/-- The steps of a path with the sessions that find them. -/
def strides : List Heading → Session σ → List (Stride σ)
  | [], _ => []
  | h :: hs, s => ⟨s, h⟩ :: strides hs (s.move h.step).1

/-- Where a path leads. -/
def walk (hs : List Heading) (s : Session σ) : Session σ := hs.foldl (fun s h => (s.move h.step).1) s

/-- Each step of the path is onto an open tile, and only the last may meet an enemy. -/
def Paved : List Heading → Session σ → Prop
  | [], _ => True
  | h :: hs, s =>
    (Stride.mk s h).IsOpen ∧ ((s.move h.step).1.collided = false ∨ hs = []) ∧ Paved hs (s.move h.step).1

/-- The steps of a search on its way up or to the left, of so many at most. -/
def homePath (h : Heading) : Nat → Session σ → List Heading
  | 0, _ => []
  | left + 1, s =>
    if s.atEdge h.step || s.isBlocked (s.play.robot.position + h.step) then []
    else h :: if (s.move h.step).1.collided then [] else homePath h left (s.move h.step).1

/-- The steps of a search from its corner on, of so many at most. -/
def sweepPath (toRight : Bool) : Nat → Session σ → List Heading
  | 0, _ => []
  | left + 1, s =>
    if s.sweepDone toRight then []
    else
      match s.sweepStep? toRight with
      | none => []
      | some (step, onward) =>
        (Heading.ofStep? step).toList ++
          if (s.move step).1.collided then [] else sweepPath onward left (s.move step).1

/-- The steps of a search to its corner. -/
def homingPath (s : Session σ) : List Heading :=
  match homeAlong Heading.up.step homingLimit s with
  | (_, .error _) => homePath .up homingLimit s
  | (t, .ok left) => homePath .up homingLimit s ++ homePath .left left t

/-- The steps of a search from its corner on. -/
def sweepingPath (s : Session σ) : List Heading :=
  match homeAlong Heading.up.step homingLimit s with
  | (_, .error _) => []
  | (t, .ok left) =>
    match homeAlong Heading.left.step left t with
    | (_, .error _) => []
    | (u, .ok _) => sweepPath true sweepLimit u

/-- The steps of a search. -/
def searchPath (s : Session σ) : List Heading := s.homingPath ++ s.sweepingPath

theorem walk_append (hs ks : List Heading) (s : Session σ) : walk (hs ++ ks) s = walk ks (walk hs s) :=
  List.foldl_append

theorem landing_steps (s : Session σ) (step : Position) :
    StepsOf Deed.ofGrab (s.arrival step) (s.landing step) := by
  unfold landing
  split
  · exact grab_steps _
  · exact .refl

/-- Grabbing where the robot has arrived does not move it, and spends no further turn. -/
theorem landing_spec (s : Session σ) (h : Heading) :
    (s.landing h.step).play.robot.position = s.play.robot.position + h.step ∧
      (s.landing h.step).play.turns = s.play.turns + 1 ∧
      (s.landing h.step).play.enemiesPaused = s.play.enemiesPaused ∧
      (s.landing h.step).play.board.enemies = s.play.board.enemies ∧ (s.landing h.step).rng = s.rng := by
  have hsteps := s.landing_steps h.step
  have grabs : ∀ {d e : Deed}, d ∈ Deed.ofGrab → e ∉ Deed.ofGrab → d ≠ e := by
    intro d e hd he heq
    exact he (heq ▸ hd)
  refine ⟨?_, ?_, ?_, ?_, ?_⟩
  · exact hsteps.unchanged (·.play.robot.position) fun hd hstep => hstep.position_eq (grabs hd (by decide))
  · exact hsteps.unchanged (·.play.turns) fun hd hstep => hstep.untouched.turns (grabs hd (by decide))
  · exact hsteps.unchanged (·.play.enemiesPaused) fun hd hstep => hstep.untouched.paused (grabs hd (by decide))
  · have henemies := hsteps.unchanged (·.play.board.enemies) fun hd hstep =>
      hstep.untouched.enemies (grabs hd (by decide))
    exact henemies.trans (stepOnto_enemies _ _)
  · exact hsteps.unchanged (·.rng) fun hd hstep => hstep.untouched.rng (grabs hd (by decide))

/-- A step onto an open tile: the robot meets an enemy when it arrives, or its turn ends there. -/
theorem move_of_open {s : Session σ} {h : Heading} (opens : (Stride.mk s h).IsOpen) :
    s.move h.step =
      if (s.arrival h.step).meetsEnemy then ((s.arrival h.step).collide, .collision)
      else ((s.landing h.step).endTurn, if (s.landing h.step).endTurn.collided then .collision else .moved) := by
  obtain ⟨inside, way⟩ := opens
  have houtside : ¬ (!s.play.board.inBounds (s.play.robot.position + h.step)) = true := by
    have hinside : s.play.board.inBounds (s.play.robot.position + h.step) = true := inside
    simp [hinside]
  have hbarred : ¬ (s.onPlay fun p => { p with turns := p.turns + 1 }).isBlocked
      (s.play.robot.position + h.step) = true := by
    have hway : s.isBlocked (s.play.robot.position + h.step) = false := way
    exact Bool.eq_false_iff.1 hway
  unfold move
  exact (if_neg houtside).trans (if_neg hbarred)

/-- A step onto an open tile that meets no enemy ends its turn where the robot has landed. -/
theorem move_of_clear {s : Session σ} {h : Heading} (opens : (Stride.mk s h).IsOpen)
    (clear : (s.move h.step).1.collided = false) :
    (s.arrival h.step).meetsEnemy = false ∧ s.move h.step = ((s.landing h.step).endTurn, .moved) := by
  have hmove := move_of_open opens
  by_cases meets : (s.arrival h.step).meetsEnemy = true
  · rw [if_pos meets] at hmove
    rw [hmove] at clear
    cases clear
  · rw [if_neg meets] at hmove
    have hended : (s.landing h.step).endTurn.collided = false := by
      rw [hmove] at clear
      exact clear
    rw [hended] at hmove
    exact ⟨Bool.eq_false_iff.2 meets, hmove⟩

/-! ## Paths -/

theorem Paved.append {hs ks : List Heading} {s : Session σ} (h : Paved hs s)
    (clear : (walk hs s).collided = false) (k : Paved ks (walk hs s)) : Paved (hs ++ ks) s := by
  induction hs generalizing s with
  | nil => exact k
  | cons heading hs ih =>
    obtain ⟨opens, first, rest⟩ := h
    refine ⟨opens, .inl ?_, ih rest clear k⟩
    rcases first with hclear | rfl
    · exact hclear
    · exact clear

/-- On a path that ends without an encounter there is none at all. -/
theorem Paved.clear {hs : List Heading} {s : Session σ} (h : Paved hs s) (clear : (walk hs s).collided = false) :
    ∀ v ∈ strides hs s, v.IsOpen ∧ v.after.collided = false := by
  induction hs generalizing s with
  | nil => exact fun v hv => (List.not_mem_nil hv).elim
  | cons heading hs ih =>
    obtain ⟨opens, first, rest⟩ := h
    rw [strides, List.forall_mem_cons]
    refine ⟨⟨opens, ?_⟩, ih rest clear⟩
    rcases first with hclear | rfl
    · exact hclear
    · exact clear

theorem Paved.opens {hs : List Heading} {s : Session σ} (h : Paved hs s) : ∀ v ∈ strides hs s, v.IsOpen := by
  induction hs generalizing s with
  | nil => exact fun v hv => (List.not_mem_nil hv).elim
  | cons heading hs ih =>
    rw [strides, List.forall_mem_cons]
    exact ⟨h.1, ih h.2.2⟩

omit [WordSource σ] in
/-- A search on its way to the corner stays on the board. -/
theorem home_inside {h : Heading} (home : h = .up ∨ h = .left) {s : Session σ} (hs : s.WellFormed)
    (further : s.atEdge h.step = false) : s.play.board.inBounds (s.play.robot.position + h.step) = true := by
  have hrobot := hs.robot_inside
  rw [Board.inBounds, inside_iff] at hrobot ⊢
  rcases home with rfl | rfl <;>
    simp only [atEdge, Heading.step, Position.add_x, Position.add_y] at further ⊢ <;>
    simp at further <;> omega

/-- The way to the corner is a path of at most so many steps up, or to the left. -/
theorem homeAlong_walk {h : Heading} (home : h = .up ∨ h = .left) (left : Nat) {s : Session σ}
    (hs : s.WellFormed) (apart : s.collided = false) :
    (homeAlong h.step left s).1 = walk (homePath h left s) s ∧ Paved (homePath h left s) s ∧
      (homePath h left s).length ≤ left ∧
      ∀ k, (homeAlong h.step left s).2 = .ok k →
        (homePath h left s).length + k = left ∧ (walk (homePath h left s) s).collided = false := by
  induction left generalizing s with
  | zero =>
    refine ⟨rfl, trivial, Nat.le_refl 0, ?_⟩
    intro k hk
    cases hk
    exact ⟨rfl, apart⟩
  | succ left ih =>
    by_cases edge : s.atEdge h.step = true
    · simp only [homeAlong, homePath, edge, Bool.true_or, if_true]
      refine ⟨rfl, trivial, Nat.zero_le _, ?_⟩
      intro k hk
      cases hk
      exact ⟨Nat.zero_add _, apart⟩
    · simp only [Bool.not_eq_true] at edge
      by_cases barred : s.isBlocked (s.play.robot.position + h.step) = true
      · simp only [homeAlong, homePath, edge, barred, Bool.or_true, if_true, Bool.false_eq_true, if_false]
        exact ⟨rfl, trivial, Nat.zero_le _, fun k hk => by cases hk⟩
      · simp only [Bool.not_eq_true] at barred
        have opens : (Stride.mk s h).IsOpen := ⟨home_inside home hs edge, barred⟩
        simp only [homeAlong, homePath, edge, barred, Bool.or_false, Bool.false_eq_true, if_false]
        by_cases meets : (s.move h.step).1.collided = true
        · simp only [meets, if_true]
          exact ⟨rfl, ⟨opens, .inr rfl, trivial⟩, Nat.succ_le_succ (Nat.zero_le _), fun k hk => by cases hk⟩
        · simp only [Bool.not_eq_true] at meets
          simp only [meets, Bool.false_eq_true, if_false]
          have hnext : (s.move h.step).1.WellFormed := hs.steps ((move_outcome s h).steps meets).steps
          obtain ⟨hwalk, hpaved, hlength, hok⟩ := ih hnext meets
          refine ⟨hwalk, ⟨opens, .inl meets, hpaved⟩, Nat.succ_le_succ hlength, ?_⟩
          intro k hk
          obtain ⟨hk, hclear⟩ := hok k hk
          exact ⟨by rw [List.length_cons]; omega, hclear⟩

omit [WordSource σ] in
/-- A sweep only goes to open tiles. -/
theorem sweepStep_open {s : Session σ} {toRight onward : Bool} {h : Heading}
    (way : s.sweepStep? toRight = some (h.step, onward)) : (Stride.mk s h).IsOpen := by
  have opens : ∀ p, (s.play.board.inBounds p && !s.isBlocked p) = true →
      s.play.board.inBounds p = true ∧ s.isBlocked p = false := by
    intro p hp
    simpa using hp
  unfold sweepStep? at way
  generalize (if toRight then Heading.right.step else Heading.left.step) = side at way
  simp only at way
  split at way
  · rename_i along
    obtain ⟨hstep, -⟩ := Prod.mk.inj (Option.some.inj way)
    rw [hstep] at along
    exact opens _ along
  · split at way
    · rename_i down
      obtain ⟨hstep, -⟩ := Prod.mk.inj (Option.some.inj way)
      rw [hstep] at down
      exact opens _ down
    · cases way

/-- The sweep is a path of at most so many steps. -/
theorem sweep_walk (before : Nat) (toRight : Bool) (left : Nat) (s : Session σ) :
    (sweep before toRight left s).1 = walk (sweepPath toRight left s) s ∧ Paved (sweepPath toRight left s) s ∧
      (sweepPath toRight left s).length ≤ left := by
  induction left generalizing toRight s with
  | zero =>
    unfold sweep sweepPath
    simp only
    split <;> exact ⟨rfl, trivial, Nat.le_refl 0⟩
  | succ left ih =>
    unfold sweep sweepPath
    simp only
    split
    · exact ⟨rfl, trivial, Nat.zero_le _⟩
    · cases way : s.sweepStep? toRight with
      | none => exact ⟨rfl, trivial, Nat.zero_le _⟩
      | some next =>
        obtain ⟨step, onward⟩ := next
        obtain ⟨h, rfl⟩ := sweepStep_heading way
        have opens : (Stride.mk s h).IsOpen := sweepStep_open way
        have hread : (Heading.ofStep? h.step).toList = [h] := by
          rw [Heading.ofStep?_eq_some_iff.2 rfl]
          rfl
        simp only [hread, List.singleton_append]
        by_cases meets : (s.move h.step).1.collided = true
        · simp only [meets, if_true]
          exact ⟨rfl, ⟨opens, .inr rfl, trivial⟩, Nat.succ_le_succ (Nat.zero_le _)⟩
        · simp only [Bool.not_eq_true] at meets
          simp only [meets, Bool.false_eq_true, if_false]
          obtain ⟨hwalk, hpaved, hlength⟩ := ih onward (s.move h.step).1
          exact ⟨hwalk, ⟨opens, .inl meets, hpaved⟩, Nat.succ_le_succ hlength⟩

/-- Where a paved path leads without an encounter the session is in order. -/
theorem Paved.wellFormed {hs : List Heading} {s : Session σ} (h : Paved hs s) (ordered : s.WellFormed)
    (clear : (walk hs s).collided = false) : (walk hs s).WellFormed := by
  induction hs generalizing s with
  | nil => exact ordered
  | cons heading hs ih =>
    have hfirst := (h.clear clear ⟨s, heading⟩ List.mem_cons_self).2
    exact ih h.2.2 (ordered.steps ((move_outcome s heading).steps hfirst).steps) clear

/-- A search is a walk along its path. -/
theorem searchFrom_walk {s : Session σ} (hs : s.WellFormed) (apart : s.collided = false) :
    s.searchFrom.1 = walk s.searchPath s ∧ Paved s.searchPath s ∧ s.homingPath.length ≤ homingLimit ∧
      s.sweepingPath.length ≤ sweepLimit := by
  obtain ⟨hup, hupPaved, hupLength, hupOk⟩ := homeAlong_walk (.inl rfl : Heading.up = .up ∨ _) homingLimit hs apart
  unfold searchFrom searchPath homingPath sweepingPath
  rcases hfirst : homeAlong Heading.up.step homingLimit s with ⟨t, reply | left⟩
  · rw [hfirst] at hup
    simp only [List.append_nil]
    exact ⟨hup, hupPaved, hupLength, Nat.zero_le _⟩
  · obtain ⟨hleft, hclear⟩ := hupOk left (by rw [hfirst])
    rw [hfirst] at hup
    have ht : t.WellFormed ∧ t.collided = false := by
      rw [show t = walk (homePath .up homingLimit s) s from hup]
      exact ⟨hupPaved.wellFormed hs hclear, hclear⟩
    obtain ⟨hside, hsidePaved, hsideLength, hsideOk⟩ :=
      homeAlong_walk (.inr rfl : Heading.left = .up ∨ _) left ht.1 ht.2
    have hcorner : walk (homePath .up homingLimit s ++ homePath .left left t) s =
        (homeAlong Heading.left.step left t).1 := by
      rw [walk_append, ← hup]
      exact hside.symm
    have hhoming : Paved (homePath .up homingLimit s ++ homePath .left left t) s := by
      refine hupPaved.append hclear ?_
      rw [← hup]
      exact hsidePaved
    have hlength : (homePath .up homingLimit s ++ homePath .left left t).length ≤ homingLimit := by
      rw [List.length_append]
      omega
    simp only
    rcases hsecond : homeAlong Heading.left.step left t with ⟨u, reply | rest⟩
    · rw [hsecond] at hcorner
      simp only [List.append_nil]
      exact ⟨hcorner.symm, hhoming, hlength, Nat.zero_le _⟩
    · have hclear' : (homeAlong Heading.left.step left t).1.collided = false := by
        rw [hside]
        exact (hsideOk rest (by rw [hsecond])).2
      rw [hsecond] at hcorner hclear'
      obtain ⟨hsweep, hsweepPaved, hsweepLength⟩ := sweep_walk s.play.board.known.size true sweepLimit u
      simp only
      refine ⟨?_, ?_, hlength, hsweepLength⟩
      · rw [walk_append, hcorner]
        exact hsweep
      · refine hhoming.append ?_ ?_
        · rw [hcorner]
          exact hclear'
        · rw [hcorner]
          exact hsweepPaved

end Walking

end Session

end ScriptedRobot
