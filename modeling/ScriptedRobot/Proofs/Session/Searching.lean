import ScriptedRobot.Proofs.Session.Agreement
import ScriptedRobot.Proofs.Session.Completion
import ScriptedRobot.Proofs.Session.Strides

/-!
# A search is a sequence of moves

The enemies stand still during a search, so each of its steps spends a turn and changes nothing about them.
On a level without enemies that is no difference at all: there a step leads to the same session whether the
enemies are told to stand still or not (`move_pausing`), and the steps of the search, taken one by one as
commands, lead to where the search leads (`after_moves`).
-/

namespace ScriptedRobot.Session

variable {σ : Type}

/-- The session with its enemies told to stand still, or no longer. -/
def pausing (s : Session σ) (paused : Bool) : Session σ := s.onPlay fun p => { p with enemiesPaused := paused }

/-! ## The flag that makes enemies stand still -/

theorem collectAll_pausing (ps : List Position) (s : Session σ) (paused : Bool) :
    collectAll ps (s.pausing paused) = ((collectAll ps s).1.pausing paused, (collectAll ps s).2) := by
  have happly : ∀ (t : Session σ) (i : Item), (t.pausing paused).applyItem i = (t.applyItem i).pausing paused := by
    intro t i
    unfold applyItem
    cases i.capabilities.timeSlow with
    | none => rfl
    | some duration => by_cases h : duration = 0 <;> simp only [h, if_true, if_false] <;> rfl
  induction ps generalizing s with
  | nil => rfl
  | cons p ps ih =>
    have hitems : (s.pausing paused).play.items = s.play.items := rfl
    rcases hc : s.play.items.collectAt p with ⟨_ | i, items⟩
    · simp only [collectAll, hitems, hc]
      exact ih s
    · simp only [collectAll, hitems, hc]
      have hfirst : (((s.pausing paused).onPlay fun play => { play with items := items }).applyItem i) =
          ((s.onPlay fun play => { play with items := items }).applyItem i).pausing paused :=
        happly (s.onPlay fun play => { play with items := items }) i
      rw [hfirst, ih]

theorem grab_pausing (s : Session σ) (paused : Bool) :
    (s.pausing paused).grab = (s.grab.1.pausing paused, s.grab.2) := by
  have hreach : (s.pausing paused).reach = s.reach := rfl
  simp only [grab, hreach, collectAll_pausing]
  rcases collectAll s.reach s with ⟨t, found⟩
  cases found with
  | nil => rfl
  | cons i found => rfl

theorem landing_pausing (s : Session σ) (step : Position) (paused : Bool) :
    (s.pausing paused).landing step = (s.landing step).pausing paused := by
  have harrival : (s.pausing paused).arrival step = (s.arrival step).pausing paused := rfl
  have hgrabs : (((s.arrival step).pausing paused).play.robot.autoGrab &&
      ((s.arrival step).pausing paused).hasGrabbable) =
        ((s.arrival step).play.robot.autoGrab && (s.arrival step).hasGrabbable) := rfl
  unfold landing
  rw [harrival, hgrabs, grab_pausing]
  split <;> rfl

/-- Searching is always allowed. -/
theorem searchAll_allowed (s : Session σ) : Command.searchAll.kind ∈ s.availableFunctions := by
  simp [Command.kind, availableFunctions, Robot.availableFunctions]

variable [WordSource σ]

omit [WordSource σ] in
/-- Completing the level is no turn and leaves the enemies alone. -/
theorem checkCompletion_untouched (s : Session σ) :
    s.checkCompletion.play.enemiesPaused = s.play.enemiesPaused ∧ s.checkCompletion.play.turns = s.play.turns ∧
      s.checkCompletion.play.board = s.play.board ∧ s.checkCompletion.rng = s.rng := by
  unfold checkCompletion
  split
  · exact ⟨rfl, rfl, rfl, rfl⟩
  · split <;> exact ⟨rfl, rfl, rfl, rfl⟩

theorem perform_searchAll (s : Session σ) : s.perform .searchAll = (s.searchAll.1, .ok s.searchAll.2) := rfl

/-- Between two commands the enemies are never told to stand still. -/
theorem Reachable.awake {levels : List LevelSpec} {s : Session σ} (h : Reachable levels s) :
    s.play.enemiesPaused = false := by
  have begun : ∀ {t : Session σ} {g : σ}, t.play = (t.play.entry.begin g).1 → t.play.enemiesPaused = false := by
    intro t g hbegin
    rw [hbegin]
    rfl
  have check := fun t : Session σ => t.checkCompletion_untouched.1
  induction h with
  | start _ starts =>
    obtain ⟨-, -, -, -, hbegin⟩ := start_ok starts
    exact begun hbegin
  | @command s h c ih =>
    by_cases search : c = .searchAll
    · -- a search wakes the enemies, whatever it came to
      subst search
      have happart : s.apart.searchAll.1.play.enemiesPaused = false := rfl
      have hperform := s.apart.perform_searchAll
      by_cases meets : s.apart.searchAll.1.collided = true
      · rw [execute_met s.searchAll_allowed hperform meets]
        exact happart
      · rw [execute_answered s.searchAll_allowed hperform (by simpa using meets)]
        exact (check _).trans happart
    · have heffect := execute_effect s c
      generalize s.execute c = outcome at heffect ⊢
      cases heffect with
      | refused _ => exact ih
      | failed _ load =>
        obtain ⟨-, -, hplay⟩ := load_error load
        show _ = _
        rw [hplay]
        exact ih
      | entered _ load =>
        obtain ⟨-, -, -, -, -, hbegin⟩ := load_ok load
        exact (check _).trans (begun hbegin)
      | @settled t r _ _ steps =>
        have hpause : .pause ∉ c.deeds := by
          cases c with
          | searchAll => exact absurd rfl search
          | _ => simp [Command.deeds, Deed.ofMove, Deed.ofGrab, Deed.ofLaser, Deed.ofTurn]
        have hsame : t.play.enemiesPaused = s.apart.play.enemiesPaused :=
          steps.unchanged (·.play.enemiesPaused) fun hd hstep => hstep.untouched.paused fun he => hpause (he ▸ hd)
        exact (check t).trans (hsame.trans ih)
      | met _ _ _ _ => rfl
  | reread _ load ih => exact ih
  | records _ _ play _ ih => rw [play]; exact ih

/-! ## Steps while the enemies stand still -/

theorem endTurn_of_paused {s : Session σ} (paused : s.play.enemiesPaused = true) : s.endTurn = s.tickStatus := by
  unfold endTurn
  simp [paused]

/-- A step that meets no enemy takes the robot to the next tile. -/
theorem Stride.lands {v : Stride σ} (opens : v.IsOpen) (clear : v.after.collided = false) :
    v.after.play.robot.position = v.target := by
  obtain ⟨hposition, -⟩ := v.before.landing_spec v.heading
  have hmove : v.after = (v.before.landing v.heading.step).endTurn := congrArg Prod.fst (move_of_clear opens clear).2
  have hended := endTurn_outcome (v.before.landing v.heading.step)
  rw [← hmove] at hended
  have hstays := (hended.steps clear).unchanged (·.play.robot.position) fun hd hstep =>
    hstep.position_eq fun he => absurd (he ▸ hd) (by decide)
  exact hstays.trans hposition

/-- A step of a search spends a turn, and the enemies stay as they are. -/
theorem Stride.still {v : Stride σ} (opens : v.IsOpen) (clear : v.after.collided = false)
    (paused : v.before.play.enemiesPaused = true) :
    v.after.play.turns = v.before.play.turns + 1 ∧ v.after.play.enemiesPaused = true ∧
      v.after.play.board.enemies = v.before.play.board.enemies ∧ v.after.rng = v.before.rng := by
  obtain ⟨-, hturns, hpaused, henemies, hrng⟩ := v.before.landing_spec v.heading
  have hlands : v.after = (v.before.landing v.heading.step).tickStatus := by
    have hmove := (move_of_clear opens clear).2
    rw [endTurn_of_paused (hpaused.trans paused)] at hmove
    exact congrArg Prod.fst hmove
  rw [hlands]
  exact ⟨hturns, hpaused.trans paused, henemies, hrng⟩

/-- While the enemies stand still a walk spends a turn for each step and changes nothing about them. -/
theorem walk_still {hs : List Heading} {s : Session σ} (paved : Paved hs s) (clear : (walk hs s).collided = false)
    (paused : s.play.enemiesPaused = true) :
    (walk hs s).play.turns = s.play.turns + hs.length ∧
      (walk hs s).play.board.enemies = s.play.board.enemies ∧ (walk hs s).rng = s.rng := by
  induction hs generalizing s with
  | nil => exact ⟨rfl, rfl, rfl⟩
  | cons h hs ih =>
    have hfirst := (paved.clear clear ⟨s, h⟩ List.mem_cons_self).2
    obtain ⟨hturns, hpaused, henemies, hrng⟩ := Stride.still paved.1 hfirst paused
    obtain ⟨hturns', henemies', hrng'⟩ := ih paved.2.2 clear hpaused
    have hsum : (s.move h.step).1.play.turns + hs.length = s.play.turns + (h :: hs).length := by
      rw [List.length_cons, show (s.move h.step).1.play.turns = s.play.turns + 1 from hturns]
      omega
    exact ⟨hturns'.trans hsum, henemies'.trans henemies, hrng'.trans hrng⟩

/-! ## Levels without enemies -/

/-- On a level without enemies a step onto an open tile is made, and its turn ends. -/
theorem move_flat {s : Session σ} {h : Heading} (opens : (Stride.mk s h).IsOpen) (flat : s.hasEnemies = false)
    (apart : s.collided = false) : s.move h.step = ((s.landing h.step).tickStatus, .moved) := by
  have hsteps := (s.landing_steps h.step).steps
  have hlevel : (s.landing h.step).hasEnemies = false := by
    rw [hasEnemies, level, hsteps.progress.entry]
    exact flat
  have hended : (s.landing h.step).endTurn = (s.landing h.step).tickStatus := by
    unfold endTurn
    simp [hlevel]
  have hclear : (s.landing h.step).tickStatus.collided = false := hsteps.collided.trans apart
  have hmeets : (s.arrival h.step).meetsEnemy = false := by
    have harrival : (s.arrival h.step).hasEnemies = false := flat
    simp [meetsEnemy, harrival]
  rw [move_of_open opens, hmeets, hended, hclear]
  rfl

/-- There it makes no difference whether the enemies are told to stand still. -/
theorem move_pausing {s : Session σ} {h : Heading} (opens : (Stride.mk s h).IsOpen) (flat : s.hasEnemies = false)
    (apart : s.collided = false) (paused : Bool) :
    (s.pausing paused).move h.step = ((s.move h.step).1.pausing paused, .moved) := by
  have hpausing : (Stride.mk (s.pausing paused) h).IsOpen := opens
  rw [move_flat hpausing flat apart, move_flat opens flat apart, landing_pausing]
  rfl

theorem flat_move {s : Session σ} {h : Heading} (opens : (Stride.mk s h).IsOpen) (flat : s.hasEnemies = false)
    (apart : s.collided = false) : (s.move h.step).1.hasEnemies = false ∧ (s.move h.step).1.collided = false := by
  have hclear : (s.move h.step).1.collided = false := by
    rw [move_flat opens flat apart]
    exact (s.landing_steps h.step).steps.collided.trans apart
  refine ⟨?_, hclear⟩
  rw [hasEnemies, level, ((move_outcome s h).steps hclear).steps.progress.entry]
  exact flat

/-- A walk over a level without enemies meets none. -/
theorem walk_flat {hs : List Heading} {s : Session σ} (paved : Paved hs s) (flat : s.hasEnemies = false)
    (apart : s.collided = false) : (walk hs s).collided = false := by
  induction hs generalizing s with
  | nil => exact apart
  | cons h hs ih =>
    obtain ⟨hflat, hclear⟩ := flat_move paved.1 flat apart
    exact ih paved.2.2 hflat hclear

omit [WordSource σ] in
theorem checkCompletion_of_incomplete {s : Session σ} (h : s.isComplete = false) : s.checkCompletion = s := by
  unfold checkCompletion
  simp [h]

/-- Where a step does not complete the level, a command to take it takes it and no more. -/
theorem execute_move {s : Session σ} {h : Heading} (unfinished : s.play.finished = false)
    (clear : (s.apart.move h.step).1.collided = false) (incomplete : (s.apart.move h.step).1.isComplete = false) :
    s.execute (.move h) =
      ((s.apart.move h.step).1.report (.executed .move (s.apart.move h.step).2.text), .ok (s.apart.move h.step).2) := by
  have allowed : (Command.move h).kind ∈ s.availableFunctions := by
    simp [Command.kind, availableFunctions, Robot.availableFunctions]
  have hperform : s.apart.perform (.move h) = ((s.apart.move h.step).1, .ok (s.apart.move h.step).2) := by
    have hgo : ¬ s.apart.play.finished = true := Bool.eq_false_iff.1 unfinished
    exact if_neg hgo
  rw [execute_answered allowed hperform clear, checkCompletion_of_incomplete incomplete]
  rfl

/-- Commands that take the steps of a walk one by one lead to where the walk leads, and each of them is
answered by saying so, if the walk never completes the level. -/
theorem after_moves {hs : List Heading} {u s : Session σ} (paved : Paved hs u) (flat : u.hasEnemies = false)
    (apart : u.collided = false) (same : Agree (u.pausing false) s.apart) (unfinished : s.play.finished = false)
    (incomplete : ∀ v ∈ strides hs u, v.after.isComplete = false) :
    Agree ((walk hs u).pausing false) (after (hs.map .move) s).apart ∧
      ∀ v ∈ visits (hs.map .move) s, v.reply? = some .moved := by
  induction hs generalizing u s with
  | nil => exact ⟨same, fun v hv => (List.not_mem_nil hv).elim⟩
  | cons h hs ih =>
    rw [strides, List.forall_mem_cons] at incomplete
    obtain ⟨hflat, hclear⟩ := flat_move paved.1 flat apart
    have hmoved := same.move h.step
    rw [move_pausing paved.1 flat apart] at hmoved
    have hsession : Agree ((u.move h.step).1.pausing false) (s.apart.move h.step).1 := hmoved.session
    have hanswer : (s.apart.move h.step).2 = .moved := hmoved.answer.symm
    have hsclear : (s.apart.move h.step).1.collided = false := hsession.collided.symm.trans hclear
    have hincomplete : (s.apart.move h.step).1.isComplete = false := hsession.isComplete.symm.trans incomplete.1
    have hexecute := execute_move unfinished hsclear hincomplete
    have hfinished : (s.apart.move h.step).1.play.finished = false := by
      have hsteps := (move_outcome s.apart h).steps hsclear
      exact (hsteps.unchanged (·.play.finished) fun hd hstep => hstep.finished_eq fun he =>
        absurd (he ▸ hd) (by decide)).trans unfinished
    have hnext : Agree ((u.move h.step).1.pausing false) (s.execute (.move h)).1.apart := by
      rw [hexecute]
      exact ⟨hsession.campaign, hsession.rng, hsession.play, hsession.credits, hclear, hsession.log⟩
    obtain ⟨hwalk, hvisits⟩ := ih paved.2.2 hflat hclear hnext (by rw [hexecute]; exact hfinished) incomplete.2
    refine ⟨hwalk, ?_⟩
    rw [List.map_cons, visits, List.forall_mem_cons]
    refine ⟨?_, hvisits⟩
    unfold Visit.reply?
    rw [hexecute, hanswer]
    rfl

/-! ## The search -/

theorem WellFormed.searching {s : Session σ} (hs : s.WellFormed) : s.searching.WellFormed := by
  have happart : s.apart.WellFormed := (invariant_wellFormed []).play (show s.apart.play = s.play from rfl) hs
  exact happart.step (.pause s.apart true)

/-- What a search comes to, its enemies awake again. -/
theorem searchAll_walk {s : Session σ} (hs : s.WellFormed) :
    s.apart.searchAll.1 = (walk s.searching.searchPath s.searching).pausing false ∧
      Paved s.searching.searchPath s.searching ∧ s.searching.homingPath.length ≤ homingLimit ∧
      s.searching.sweepingPath.length ≤ sweepLimit := by
  obtain ⟨hwalk, hpaved, hhoming, hsweeping⟩ := searchFrom_walk hs.searching rfl
  refine ⟨?_, hpaved, hhoming, hsweeping⟩
  rw [← hwalk]
  rfl

theorem execute_search_clear {s : Session σ} (hs : s.WellFormed)
    (clear : (walk s.searching.searchPath s.searching).collided = false) :
    ∃ r, s.execute .searchAll = (((walk s.searching.searchPath s.searching).pausing false).checkCompletion.report
      (.executed .searchAll r.text), .ok r) := by
  have hperform := s.apart.perform_searchAll
  rw [(searchAll_walk hs).1] at hperform
  exact ⟨_, execute_answered s.searchAll_allowed hperform clear⟩

theorem execute_search_met {s : Session σ} (hs : s.WellFormed)
    (meets : (walk s.searching.searchPath s.searching).collided = true) :
    s.execute .searchAll = (((walk s.searching.searchPath s.searching).pausing false).report
      (.executed .searchAll Reply.collision.text), .ok .collision) := by
  have hperform := s.apart.perform_searchAll
  rw [(searchAll_walk hs).1] at hperform
  exact execute_met s.searchAll_allowed hperform meets

/-- A level that is incomplete now was so all the time. -/
theorem isComplete_mono {levels : List LevelSpec} {s t : Session σ} (hs : Grounded levels s) (hw : s.WellFormed)
    (k : Steps s t) (h : t.isComplete = false) : s.isComplete = false := by
  by_contra complete
  simp only [Bool.not_eq_false] at complete
  have hcomplete := ((isComplete_iff hs hw).1 complete).progress k.progress
  have ht := (isComplete_iff (hs.progress k.progress) (hw.steps k)).2 hcomplete
  rw [h] at ht
  cases ht

theorem Paved.steps {hs : List Heading} {s : Session σ} (h : Paved hs s) (clear : (walk hs s).collided = false) :
    Steps s (walk hs s) := by
  induction hs generalizing s with
  | nil => exact .refl
  | cons heading hs ih =>
    have hfirst := (h.clear clear ⟨s, heading⟩ List.mem_cons_self).2
    exact ((move_outcome s heading).steps hfirst).steps.trans (ih h.2.2 clear)

theorem Paved.between {hs : List Heading} {s : Session σ} (h : Paved hs s) (clear : (walk hs s).collided = false) :
    ∀ v ∈ strides hs s, Steps s v.after ∧ Steps v.after (walk hs s) := by
  induction hs generalizing s with
  | nil => exact fun v hv => (List.not_mem_nil hv).elim
  | cons heading hs ih =>
    have hfirst := (h.clear clear ⟨s, heading⟩ List.mem_cons_self).2
    have hstep : Steps s (s.move heading.step).1 := ((move_outcome s heading).steps hfirst).steps
    have hrest := ih h.2.2 clear
    rw [strides, List.forall_mem_cons]
    exact ⟨⟨hstep, h.2.2.steps clear⟩, fun v hv => ⟨hstep.trans (hrest v hv).1, (hrest v hv).2⟩⟩

/-- A search is a sequence of moves, at most `homingLimit` of them up and to the left and at most `sweepLimit`
over the board. Each goes to a tile next to the robot that is on the board and not barred at that moment. The
enemies are never told to stand still after it. Unless an enemy is met, every move spends a turn, and neither the
enemies nor the source of random numbers change. On a level without enemies that is neither finished before nor
complete after the search, the same moves as commands of their own are all made, and lead to the same play. -/
theorem search_is_moves {levels : List LevelSpec} {s : Session σ} (h : Reachable levels s) :
    (s.apart.searchAll.1 = (walk s.searching.searchPath s.searching).pausing false ∧
        s.searching.searchPath = s.searching.homingPath ++ s.searching.sweepingPath ∧
        s.searching.homingPath.length ≤ homingLimit ∧ s.searching.sweepingPath.length ≤ sweepLimit) ∧
      (∀ v ∈ strides s.searching.searchPath s.searching,
        v.IsOpen ∧ (v.after.collided = false → v.after.play.robot.position = v.target)) ∧
      (s.execute .searchAll).1.play.enemiesPaused = false ∧
      ((s.execute .searchAll).1.collided = false →
        (s.execute .searchAll).1.play.turns = s.play.turns + s.searching.searchPath.length ∧
          (s.execute .searchAll).1.play.board.enemies = s.play.board.enemies ∧
          (s.execute .searchAll).1.rng = s.rng) ∧
      (s.level < enemyLevelIndex → s.play.finished = false → (s.execute .searchAll).1.isComplete = false →
        (s.execute .searchAll).1.play = (after (s.searching.searchPath.map .move) s).play ∧
          (s.execute .searchAll).1.credits = (after (s.searching.searchPath.map .move) s).credits ∧
          (s.execute .searchAll).1.rng = (after (s.searching.searchPath.map .move) s).rng ∧
          ∀ v ∈ visits (s.searching.searchPath.map .move) s, v.reply? = some .moved) := by
  obtain ⟨hwalk, hpaved, hhoming, hsweeping⟩ := searchAll_walk h.wellFormed
  refine ⟨⟨hwalk, rfl, hhoming, hsweeping⟩, ?_, (h.command .searchAll).awake, ?_, ?_⟩
  · intro v hv
    have opens := hpaved.opens v hv
    exact ⟨opens, Stride.lands opens⟩
  · intro clear
    have hclear : (walk s.searching.searchPath s.searching).collided = false := by
      by_contra meets
      rw [execute_search_met h.wellFormed (by simpa using meets)] at clear
      exact meets clear
    obtain ⟨hturns, henemies, hrng⟩ := walk_still hpaved hclear rfl
    obtain ⟨r, hexecute⟩ := execute_search_clear h.wellFormed hclear
    obtain ⟨-, hturns', hboard', hrng'⟩ :=
      ((walk s.searching.searchPath s.searching).pausing false).checkCompletion_untouched
    rw [hexecute]
    exact ⟨hturns'.trans hturns, (congrArg Board.enemies hboard').trans henemies, hrng'.trans hrng⟩
  · intro flat unfinished incomplete
    have hflat : s.searching.hasEnemies = false := by
      have : ¬ s.level ≥ enemyLevelIndex := by omega
      exact decide_eq_false this
    have hclear := walk_flat hpaved hflat rfl
    obtain ⟨r, hexecute⟩ := execute_search_clear h.wellFormed hclear
    have hs : Grounded levels s.searching := h.grounded.of_eq rfl rfl rfl
    have hw : s.searching.WellFormed := h.wellFormed.searching
    -- the steps that the search takes before it looks whether the level is complete
    have hlast : Steps (walk s.searching.searchPath s.searching) (s.execute .searchAll).1 := by
      rw [hexecute]
      exact ((checkCompletion_steps _).head ⟨_, .pause _ false⟩).tail ⟨_, .answer _ _ _⟩
    have hincomplete : ∀ v ∈ strides s.searching.searchPath s.searching, v.after.isComplete = false := by
      intro v hv
      obtain ⟨hbefore, hafter⟩ := hpaved.between hclear v hv
      exact isComplete_mono (hs.progress hbefore.progress) (hw.steps hbefore) (hafter.trans hlast) incomplete
    have hsteps := hpaved.steps hclear
    have hend := isComplete_mono (hs.progress hsteps.progress) (hw.steps hsteps) hlast incomplete
    have hwoken : ((walk s.searching.searchPath s.searching).pausing false).isComplete = false := hend
    have hsame : Agree (s.searching.pausing false) s.apart := by
      have hplay : (s.searching.pausing false).play = s.apart.play := by
        have hawake := h.awake
        show { s.play with enemiesPaused := false } = s.play
        rw [← hawake]
      exact ⟨rfl, rfl, hplay, rfl, rfl, rfl⟩
    obtain ⟨hagree, hvisits⟩ := after_moves hpaved hflat rfl hsame unfinished hincomplete
    rw [hexecute, checkCompletion_of_incomplete hwoken]
    exact ⟨hagree.play, hagree.credits, hagree.rng, hvisits⟩

theorem search_is_moves_courtyard : inFirstCourtyard.searching.searchPath = [.right, .right] ∧
    (inFirstCourtyard.execute .searchAll).1.play.turns = 2 ∧
    (inFirstCourtyard.execute .searchAll).1.play =
      (after [.move .right, .move .right] inFirstCourtyard).play ∧
    ∀ v ∈ visits [.move .right, .move .right] inFirstCourtyard, v.reply? = some .moved := by
  have path : inFirstCourtyard.searching.searchPath = [.right, .right] := by decide +kernel
  have clear : (inFirstCourtyard.execute .searchAll).1.collided = false := by decide +kernel
  have flat : inFirstCourtyard.level < enemyLevelIndex := by decide +kernel
  have unfinished : inFirstCourtyard.play.finished = false := by decide +kernel
  have incomplete : (inFirstCourtyard.execute .searchAll).1.isComplete = false := by decide +kernel
  obtain ⟨-, -, -, hstill, hmoves⟩ := search_is_moves (.start rfl inFirstCourtyard_starts)
  obtain ⟨hturns, -⟩ := hstill clear
  obtain ⟨hplay, -, -, hanswers⟩ := hmoves flat unfinished incomplete
  rw [path] at hturns hplay hanswers
  exact ⟨path, hturns, hplay, hanswers⟩

end ScriptedRobot.Session
