import ScriptedRobot.Proofs.Session.Turns

/-!
# How long a hit lasts

A laser stuns an enemy for `stunTurns` turns and removes an obstacle for `removalTurns`, and the turn that it
ends itself counts among them. The count is taken at every end of turn, also where the enemies are told to stand
still, and by nothing else. `Counting` is what holds of an enemy after so many turns; an end of turn takes it one
further, and all that happens between two ends of turns leaves it as it is.
-/

namespace ScriptedRobot

/-- The laser that the command fires hits an enemy. -/
def Visit.Stuns {σ : Type} (v : Visit σ) (i : Nat) : Prop :=
  ∃ t p, v.Fires (t, .laserEnemy p) ∧ v.before.play.board.enemyAt? p = some i

/-- The laser that the command fires hits an obstacle. -/
def Visit.Removes {σ : Type} (v : Visit σ) (p : Position) : Prop := ∃ t, v.Fires (t, .laserObstacle p)

namespace Session

variable {σ : Type}

/-! ## Counting down -/

/-- What is left of some turns after so many of them. -/
def remaining (turns n : Nat) : Option Nat := if n < turns then some (turns - n) else none

theorem isSome_remaining {turns n : Nat} : (remaining turns n).isSome = true ↔ n < turns := by
  unfold remaining
  split <;> simp [*]

theorem left?_tick_of_remaining {κ : Type} [DecidableEq κ] {c : Countdown κ} (once : c.Once) {k : κ}
    {turns n : Nat} (h : c.left? k = remaining turns n) : c.tick.left? k = remaining turns (n + 1) := by
  rw [once.left?_tick, h]
  unfold remaining
  by_cases now : n < turns
  · by_cases next : n + 1 < turns
    · have hmore : 1 < turns - n := by omega
      have hless : turns - n - 1 = turns - (n + 1) := by omega
      simp [now, next, hmore, hless]
    · have hlast : ¬ 1 < turns - n := by omega
      simp [now, next, hlast]
  · have next : ¬ n + 1 < turns := by omega
    simp [now, next]

/-- No enemy is listed twice as stunned, and no obstacle as removed. -/
def CountsOnce (s : Session σ) : Prop := s.play.stunned.Once ∧ s.play.removed.Once

variable [WordSource σ]

theorem Step.countsOnce {d : Deed} {s t : Session σ} (hstep : Step s d t) (h : s.CountsOnce) : t.CountsOnce := by
  obtain ⟨hstunned, hremoved⟩ := h
  have same := hstep.untouched
  unfold CountsOnce
  cases hstep with
  | stun armed inside found => exact ⟨hstunned.set _ _, hremoved⟩
  | remove armed inside blocked => exact ⟨hstunned, hremoved.set _ _⟩
  | tick => exact ⟨hstunned.tick, hremoved.tick⟩
  | _ =>
    rw [same.stunned nofun nofun, same.removed nofun nofun]
    exact ⟨hstunned, hremoved⟩

theorem invariant_countsOnce (levels : List LevelSpec) : Invariant levels (CountsOnce : Session σ → Prop) where
  begins := fun {s} _ hb => by
    obtain ⟨g, hplay⟩ := hb
    rw [CountsOnce, hplay]
    exact ⟨Countdown.once_empty, Countdown.once_empty⟩
  step := fun _ hstep h => hstep.countsOnce h
  reread := fun _ h => h
  play := fun {s t} play h => by
    rw [CountsOnce, play]
    exact h

theorem Reachable.countsOnce {levels : List LevelSpec} {s : Session σ} (h : Reachable levels s) : s.CountsOnce :=
  ((invariant_countsOnce levels).reachable h).2

/-! ## The end of a turn -/

/-- At the end of a turn that meets no enemy the enemies move, unless they are asleep or told to stand still, and
then the counts run down. -/
theorem endTurn_of_clear {s : Session σ} (clear : s.endTurn.collided = false) :
    (s.hasEnemies = true ∧ s.play.enemiesPaused = false ∧ s.endTurn = s.moveEnemies.tickStatus) ∨
      ((s.hasEnemies = false ∨ s.play.enemiesPaused = true) ∧ s.endTurn = s.tickStatus) := by
  unfold endTurn at clear ⊢
  by_cases awake : s.hasEnemies ∧ !s.play.enemiesPaused
  · rw [if_pos awake] at clear ⊢
    by_cases meets : s.moveEnemies.meetsEnemy = true
    · simp only [meets, if_true] at clear
      cases clear
    · simp only [meets, Bool.false_eq_true, if_false]
      exact .inl ⟨awake.1, by simpa using awake.2, trivial⟩
  · rw [if_neg awake]
    refine .inr ⟨?_, rfl⟩
    by_cases deep : s.hasEnemies = true
    · simp only [deep, true_and, Bool.not_eq_true', Bool.not_eq_false] at awake
      exact .inr awake
    · exact .inl (Bool.eq_false_iff.2 deep)

theorem endTurn_counts {s : Session σ} (clear : s.endTurn.collided = false) :
    s.endTurn.play.stunned = s.play.stunned.tick ∧ s.endTurn.play.removed = s.play.removed.tick ∧
      s.endTurn.play.entry = s.play.entry := by
  rcases endTurn_of_clear clear with ⟨-, -, he⟩ | ⟨-, he⟩
  · rw [he]
    exact ⟨rfl, rfl, rfl⟩
  · rw [he]
    exact ⟨rfl, rfl, rfl⟩

/-- A stunned enemy has no turn. -/
theorem endTurn_stunned {s : Session σ} (clear : s.endTurn.collided = false) {i : Nat}
    (stunned : s.play.stunned.has i = true) :
    s.endTurn.play.board.enemies[i]? = s.play.board.enemies[i]? := by
  rcases endTurn_of_clear clear with ⟨-, -, he⟩ | ⟨-, he⟩
  · rw [he]
    exact Board.advance_frozen s.play.board (some s.play.robot.position) s.play.stunned.has s.rng stunned
  · rw [he]
    rfl

/-- An enemy has its turn when the turn ends: its strategy decides on the board that the enemies before it have
left. -/
def TicksEnemy (s : Session σ) (i : Nat) : Prop :=
  ∃ e e' target, s.play.board.enemies[i]? = some e ∧ s.endTurn.play.board.enemies[i]? = some e' ∧
    Board.TicksTo σ (s.play.board.midway s.endTurn.play.board i) (some s.play.robot.position) e e' target

theorem endTurn_ticks {s : Session σ} (clear : s.endTurn.collided = false) (deep : s.hasEnemies = true)
    (awake : s.play.enemiesPaused = false) {i : Nat} {e : Enemy} (there : s.play.board.enemies[i]? = some e)
    (free : s.play.stunned.has i = false) : s.TicksEnemy i := by
  rcases endTurn_of_clear clear with ⟨-, -, he⟩ | ⟨asleep, -⟩
  · obtain ⟨target, e', hticks, hafter, -⟩ :=
      Board.advance_ticks s.play.board (some s.play.robot.position) s.play.stunned.has s.rng there free
    unfold TicksEnemy
    rw [he]
    exact ⟨e, e', target, there, hafter, hticks⟩
  · rcases asleep with shallow | paused
    · rw [deep] at shallow
      cases shallow
    · rw [awake] at paused
      cases paused

/-- The end of a turn takes no enemy away. -/
theorem endTurn_there {s : Session σ} (clear : s.endTurn.collided = false) {i : Nat}
    (there : i < s.play.board.enemies.length) : i < s.endTurn.play.board.enemies.length := by
  have hdevelops := ((endTurn_outcome s).steps clear).steps.progress.board
  rwa [hdevelops.length_enemies]

/-! ## Between two ends of turns -/

/-- Neither the enemies nor what lasts a number of turns has changed. -/
structure Quiet (s t : Session σ) : Prop where
  entry : t.play.entry = s.play.entry
  enemies : t.play.board.enemies = s.play.board.enemies
  stunned : t.play.stunned = s.play.stunned
  removed : t.play.removed = s.play.removed

omit [WordSource σ] in
theorem Quiet.of_play {s t : Session σ} (h : t.play = s.play) : Quiet s t := by
  constructor <;> rw [h]

theorem quiet_calm : Calm (Quiet : Session σ → Session σ → Prop) where
  records := Quiet.of_play
  trans := fun h k =>
    ⟨k.entry.trans h.entry, k.enemies.trans h.enemies, k.stunned.trans h.stunned, k.removed.trans h.removed⟩
  step := fun hstep quiet => by
    have same := hstep.untouched
    refine ⟨hstep.progress.entry, same.enemies ?_, same.stunned ?_ ?_, same.removed ?_ ?_⟩ <;>
      · rintro rfl
        exact quiet (by decide)

/-- As far as the stun of one enemy goes nothing has happened. -/
structure Spares (i : Nat) (s t : Session σ) : Prop where
  entry : t.play.entry = s.play.entry
  enemies : t.play.board.enemies = s.play.board.enemies
  once : s.play.stunned.Once → t.play.stunned.Once
  left : t.play.stunned.left? i = s.play.stunned.left? i

omit [WordSource σ] in
theorem Quiet.spares {s t : Session σ} (h : Quiet s t) (i : Nat) : Spares i s t :=
  ⟨h.entry, h.enemies, fun once => h.stunned ▸ once, by rw [h.stunned]⟩

theorem spares_calm (i : Nat) : Calm (Spares i : Session σ → Session σ → Prop) where
  records := fun h => (Quiet.of_play h).spares i
  trans := fun h k =>
    ⟨k.entry.trans h.entry, k.enemies.trans h.enemies, fun once => k.once (h.once once), k.left.trans h.left⟩
  step := fun hstep quiet => (quiet_calm.step hstep quiet).spares i

omit [WordSource σ] in
/-- A laser that does not hit the enemy has nothing to do with its stun. -/
theorem spares_of_fires {v : Visit σ} {i : Nat} (misses : ¬ v.Stuns i) {o : Session σ × Reply} (fires : v.Fires o) :
    Spares i v.before.apart o.1 := by
  have hshot := fires_shot fires.2
  cases hshot with
  | misses enemy obstacle => exact (Quiet.of_play rfl).spares i
  | @stuns p j found =>
    have hother : i ≠ j := by
      rintro rfl
      exact misses ⟨_, p, fires, found⟩
    refine ⟨rfl, rfl, fun once => once.set j stunTurns, ?_⟩
    exact (Countdown.left?_set _ _ _ _).trans (if_neg hother)
  | removes blocked => exact ⟨rfl, rfl, id, rfl⟩

/-- As far as the gap on one tile goes, it has not closed. -/
structure Gapes (p : Position) (s t : Session σ) : Prop where
  once : s.play.removed.Once → t.play.removed.Once
  left : ∀ k, s.play.removed.left? p = some k → t.play.removed.left? p = some k

/-- As far as the gap on one tile goes, nothing has happened. -/
structure Leaves (p : Position) (s t : Session σ) : Prop where
  once : s.play.removed.Once → t.play.removed.Once
  left : t.play.removed.left? p = s.play.removed.left? p

omit [WordSource σ] in
theorem Quiet.leaves {s t : Session σ} (h : Quiet s t) (p : Position) : Leaves p s t :=
  ⟨fun once => h.removed ▸ once, by rw [h.removed]⟩

omit [WordSource σ] in
theorem Leaves.gapes {p : Position} {s t : Session σ} (h : Leaves p s t) : Gapes p s t :=
  ⟨h.once, fun _ hk => h.left.trans hk⟩

theorem leaves_calm (p : Position) : Calm (Leaves p : Session σ → Session σ → Prop) where
  records := fun h => (Quiet.of_play h).leaves p
  trans := fun h k => ⟨fun once => k.once (h.once once), k.left.trans h.left⟩
  step := fun hstep quiet => (quiet_calm.step hstep quiet).leaves p

theorem gapes_calm (p : Position) : Calm (Gapes p : Session σ → Session σ → Prop) where
  records := fun h => ((Quiet.of_play h).leaves p).gapes
  trans := fun h k => ⟨fun once => k.once (h.once once), fun _ hn => k.left _ (h.left _ hn)⟩
  step := fun hstep quiet => ((quiet_calm.step hstep quiet).leaves p).gapes

omit [WordSource σ] in
/-- A laser that hits no obstacle on the tile has nothing to do with the gap there. -/
theorem leaves_of_fires {v : Visit σ} {p : Position} (misses : ¬ v.Removes p) {o : Session σ × Reply}
    (fires : v.Fires o) : Leaves p v.before.apart o.1 := by
  have hshot := fires_shot fires.2
  cases hshot with
  | misses enemy obstacle => exact (Quiet.of_play rfl).leaves p
  | stuns found => exact ⟨id, rfl⟩
  | @removes q blocked =>
    have hother : p ≠ q := by
      rintro rfl
      exact misses ⟨_, fires⟩
    refine ⟨fun once => once.set q removalTurns, ?_⟩
    exact (Countdown.left?_set _ _ _ _).trans (if_neg hother)

omit [WordSource σ] in
/-- No laser hits an obstacle where there is a gap. -/
theorem gapes_of_fires {v : Visit σ} {p : Position} {o : Session σ × Reply} (fires : v.Fires o) :
    Gapes p v.before.apart o.1 := by
  have hshot := fires_shot fires.2
  cases hshot with
  | misses enemy obstacle => exact ((Quiet.of_play rfl).leaves p).gapes
  | stuns found => exact ⟨id, fun _ => id⟩
  | @removes q blocked =>
    refine ⟨fun once => once.set q removalTurns, fun k hk => ?_⟩
    have hother : p ≠ q := by
      rintro rfl
      have hhas : v.before.apart.play.removed.has p = true := by
        rw [Countdown.has, hk]
        rfl
      simp only [isBlocked, Board.isBlockedUnless, hhas] at blocked
      cases blocked
    exact ((Countdown.left?_set _ _ _ _).trans (if_neg hother)).trans hk

/-! ## After a hit -/

/-- What holds of a stunned enemy when so many turns have ended since the hit. -/
structure Counting (i : Nat) (e : Enemy) (n : Nat) (s : Session σ) : Prop where
  deep : s.hasEnemies = true
  once : s.play.stunned.Once
  left : s.play.stunned.left? i = remaining stunTurns n
  there : i < s.play.board.enemies.length
  held : n ≤ stunTurns → s.play.board.enemies[i]? = some e

namespace Counting

variable {i : Nat} {e : Enemy} {n : Nat} {s t : Session σ}

omit [WordSource σ] in
theorem stunned (h : Counting i e n s) : s.play.stunned.has i = true ↔ n < stunTurns := by
  rw [Countdown.has, h.left, isSome_remaining]

omit [WordSource σ] in
theorem keep (h : Counting i e n s) (k : Spares i s t) : Counting i e n t where
  deep := by rw [hasEnemies, level, k.entry]; exact h.deep
  once := k.once h.once
  left := k.left.trans h.left
  there := by rw [k.enemies]; exact h.there
  held := by rw [k.enemies]; exact h.held

/-- The end of a turn takes the count one further. -/
theorem ends (h : Counting i e n s) (clear : s.endTurn.collided = false) : Counting i e (n + 1) s.endTurn := by
  obtain ⟨hstunned, -, hentry⟩ := endTurn_counts clear
  refine ⟨?_, ?_, ?_, endTurn_there clear h.there, ?_⟩
  · rw [hasEnemies, level, hentry]
    exact h.deep
  · rw [hstunned]
    exact h.once.tick
  · rw [hstunned]
    exact left?_tick_of_remaining h.once h.left
  · intro early
    rw [endTurn_stunned clear (h.stunned.2 early)]
    exact h.held (Nat.le_of_succ_le early)

end Counting

/-- What holds of a gap when so many turns have ended since the hit, and no new one was made there. -/
structure Gap (p : Position) (n : Nat) (s : Session σ) : Prop where
  once : s.play.removed.Once
  left : s.play.removed.left? p = remaining removalTurns n

/-- What holds of a gap when so many turns have ended since the hit, whatever has been hit since. -/
structure OpenGap (p : Position) (n : Nat) (s : Session σ) : Prop where
  once : s.play.removed.Once
  left : n < removalTurns → s.play.removed.left? p = remaining removalTurns n

section Gaps

variable {p : Position} {n : Nat} {s t : Session σ}

omit [WordSource σ] in
theorem Gap.keep (h : Gap p n s) (k : Leaves p s t) : Gap p n t := ⟨k.once h.once, k.left.trans h.left⟩

omit [WordSource σ] in
theorem OpenGap.keep (h : OpenGap p n s) (k : Gapes p s t) : OpenGap p n t := by
  refine ⟨k.once h.once, fun early => ?_⟩
  obtain ⟨m, hm⟩ := Option.isSome_iff_exists.1 (isSome_remaining.2 early)
  rw [hm]
  exact k.left m ((h.left early).trans hm)

theorem Gap.ends (h : Gap p n s) (clear : s.endTurn.collided = false) : Gap p (n + 1) s.endTurn := by
  obtain ⟨-, hremoved, -⟩ := endTurn_counts clear
  refine ⟨?_, ?_⟩
  · rw [hremoved]
    exact h.once.tick
  · rw [hremoved]
    exact left?_tick_of_remaining h.once h.left

theorem OpenGap.ends (h : OpenGap p n s) (clear : s.endTurn.collided = false) : OpenGap p (n + 1) s.endTurn := by
  obtain ⟨-, hremoved, -⟩ := endTurn_counts clear
  refine ⟨?_, fun early => ?_⟩
  · rw [hremoved]
    exact h.once.tick
  · rw [hremoved]
    exact left?_tick_of_remaining h.once (h.left (Nat.lt_of_succ_lt early))

omit [WordSource σ] in
theorem OpenGap.passable (h : OpenGap p n s) (early : n < removalTurns) : s.isBlocked p = false := by
  have hhas : s.play.removed.has p = true := by
    rw [Countdown.has, h.left early]
    exact isSome_remaining.2 early
  simp [isBlocked, Board.isBlockedUnless, hhas]

omit [WordSource σ] in
theorem Gap.closed (h : Gap p n s) (late : removalTurns ≤ n) : s.isBlocked p = s.play.board.isBlocked p := by
  have hhas : s.play.removed.has p = false := by
    rw [Countdown.has, h.left]
    rw [Bool.eq_false_iff]
    intro some
    have hearly := isSome_remaining.1 some
    omega
  simp [isBlocked, Board.isBlockedUnless, hhas]

end Gaps

/-! ## Commands that end no turn -/

end Session

variable {σ : Type} [WordSource σ]

/-- The command is not carried out, or is barred, or has nothing to do with the world. -/
inductive Visit.Idle (v : Visit σ) : Prop where
  /-- The level does not allow it. -/
  | refused (h : v.command.kind ∉ v.before.availableFunctions) : Visit.Idle v
  /-- It is a move on a level that is finished. -/
  | finished {h : Heading} (command : v.command = .move h) (finished : v.before.play.finished = true) : Visit.Idle v
  /-- It is a move or a scan that is barred. -/
  | barred (kind : v.command.kind = .move ∨ v.command.kind = .scan) (obstructed : v.before.Obstructed v.command) :
      Visit.Idle v
  /-- It prints, gives up, or switches grabbing at every step on or off. -/
  | speaks (kind : v.command.kind ∈ [CommandKind.println, .eprintln, .panic, .setAutoGrab]) : Visit.Idle v

namespace Session

/-- A command whose record is empty ends no turn. -/
theorem endless_of_perform {s t : Session σ} {c : Command} {r : Reply} (stays : s.destination? c = none)
    (hperform : s.apart.perform c = (t, .ok r)) (clear : t.collided = false)
    (empty : Recorder.turns.command s.apart c = []) (shotless : s.apart.fires c = none) :
    (Visit.mk s c).Stays ∧ (Visit.mk s c).turnEnds = [] ∧ ∀ o, ¬ (Visit.mk s c).Fires o := by
  have hnoShot : ∀ o, ¬ (Visit.mk s c).Fires o := by
    intro o fires
    have hfires : s.apart.fires c = some o := fires.2
    rw [shotless] at hfires
    cases hfires
  by_cases allowed : c.kind ∈ s.availableFunctions
  · refine ⟨Visit.Stays.of_destination ?_ stays, ?_, hnoShot⟩
    · rw [Visit.after, execute_answered allowed hperform clear]
      exact (checkCompletion_steps t).collided.trans clear
    · rw [Visit.turnEnds, Recorder.visit_of_answered (v := ⟨s, c⟩) allowed hperform, empty]
      rfl
  · refine ⟨Visit.Stays.of_destination ?_ stays, Recorder.visit_of_refused (v := ⟨s, c⟩) allowed, hnoShot⟩
    rw [Visit.after, execute_refused allowed]
    rfl

/-- A scan that is barred shows what is on the way, and its turn does not end. -/
theorem scan_barred {s : Session σ} {h : Heading} (barred : ∃ p ∈ s.play.robot.scannerTiles h.step
    s.play.board.width s.play.board.height, s.isBlocked p = true) :
    (s.scan h.step).1 = (s.scanning h.step).1 ∧ Recorder.turns.look s h.step = [] := by
  have through : (s.scanning h.step).2.1 = false := (scanAll_through _ s).2 barred
  rw [scan_eq, Recorder.look, through]
  exact ⟨rfl, rfl⟩

/-- A command that is idle is over where it started, as far as turns go. -/
theorem idle_spec {v : Visit σ} (h : v.Idle) : v.Stays ∧ v.turnEnds = [] ∧ ∀ o, ¬ v.Fires o := by
  obtain ⟨s, c⟩ := v
  cases h with
  | refused refused =>
    refine ⟨⟨?_, ?_⟩, Recorder.visit_of_refused (v := ⟨s, c⟩) refused, fun o fires => refused fires.1⟩
    · rw [Visit.after, execute_refused refused]
      rfl
    · intro i u goes
      exact absurd (allowed_of_destination goes) refused
  | @finished heading command finished =>
    cases command
    have hperform : s.apart.perform (.move heading) = (s.apart, .ok .alreadyComplete) := if_pos finished
    exact endless_of_perform rfl hperform rfl (if_pos finished) rfl
  | barred kind obstructed =>
    cases c with
    | move heading =>
      obtain ⟨unfinished, hbarred⟩ := obstructed
      have hgo : ¬ s.apart.play.finished = true := Bool.eq_false_iff.1 unfinished
      have closed : ¬ (Stride.mk s.apart heading).IsOpen := by
        rintro ⟨inside, way⟩
        rcases hbarred with outside | blocked
        · exact absurd inside (Bool.eq_false_iff.1 outside)
        · exact absurd blocked (Bool.eq_false_iff.1 way)
      have hperform : s.apart.perform (.move heading) =
          ((s.apart.move heading.step).1, .ok (s.apart.move heading.step).2) := if_neg hgo
      have hempty : Recorder.turns.command s.apart (.move heading) = [] :=
        (if_neg hgo).trans (Recorder.step_of_barred closed)
      exact endless_of_perform rfl hperform (move_barred closed).steps.collided hempty rfl
    | scan heading =>
      obtain ⟨hscan, hempty⟩ := scan_barred (s := s.apart) obstructed.2
      have hperform : s.apart.perform (.scan heading) =
          ((s.apart.scan heading.step).1, .ok (s.apart.scan heading.step).2) := rfl
      have hclear : (s.apart.scan heading.step).1.collided = false := by
        rw [hscan]
        exact (scanAll_steps _ s.apart).steps.collided
      exact endless_of_perform rfl hperform hclear hempty rfl
    | _ => rcases kind with kind | kind <;> cases kind
  | speaks kind =>
    cases c with
    | println text => exact endless_of_perform rfl rfl rfl rfl rfl
    | eprintln text => exact endless_of_perform rfl rfl rfl rfl rfl
    | panic message => exact endless_of_perform rfl rfl rfl rfl rfl
    | setAutoGrab on => exact endless_of_perform rfl rfl rfl rfl rfl
    | _ => simp [Command.kind] at kind

theorem idle_quiet {v : Visit σ} (hs : v.before.WellFormed) (h : v.Idle) : Quiet v.before v.after := by
  obtain ⟨stays, hends, hfires⟩ := idle_spec h
  have helapses := quiet_calm.tracks.execute hs stays fun o fires => absurd fires (hfires o)
  have hempty : Recorder.turns.visit v = [] := hends
  rw [hempty] at helapses
  cases helapses with
  | rest hquiet => exact hquiet

/-! ## What a hit comes to -/

/-- The enemy stays as it is through `stunTurns` turns, is listed as stunned until the last of them has ended, and
has its turn again from then on. `turns` are the sessions in which turns have ended since the hit, `now` is where
they have led. -/
structure StunLasts (i : Nat) (e : Enemy) (turns : List (Session σ)) (now : Session σ) : Prop where
  held : ∀ (n : Nat) (u : Session σ), turns[n]? = some u → n < stunTurns →
    u.play.board.enemies[i]? = some e ∧ u.endTurn.play.board.enemies[i]? = some e
  listed : ∀ (n : Nat) (u : Session σ), turns[n]? = some u →
    (u.endTurn.play.stunned.has i = true ↔ n + 1 < stunTurns)
  ticked : ∀ (n : Nat) (u : Session σ), turns[n]? = some u → stunTurns ≤ n → u.play.enemiesPaused = false →
    u.TicksEnemy i
  heldNow : turns.length ≤ stunTurns → now.play.board.enemies[i]? = some e
  listedNow : now.play.stunned.has i = true ↔ turns.length < stunTurns

/-- The tile is passable until `removalTurns` turns have ended. -/
structure GapLasts (p : Position) (turns : List (Session σ)) (now : Session σ) : Prop where
  passable : ∀ (n : Nat) (u : Session σ), turns[n]? = some u → n < removalTurns → u.isBlocked p = false
  passableAfter : ∀ (n : Nat) (u : Session σ), turns[n]? = some u → n + 1 < removalTurns →
    u.endTurn.isBlocked p = false
  passableNow : turns.length < removalTurns → now.isBlocked p = false

/-- From then on it is barred again by what is there: a blocker or a closed door. -/
structure GapCloses (p : Position) (turns : List (Session σ)) (now : Session σ) : Prop where
  barred : ∀ (n : Nat) (u : Session σ), turns[n]? = some u → removalTurns ≤ n + 1 →
    u.endTurn.isBlocked p = u.endTurn.play.board.isBlocked p
  barredNow : removalTurns ≤ turns.length → now.isBlocked p = now.play.board.isBlocked p

theorem stunLasts_of_counting {i : Nat} {e : Enemy} {s now : Session σ} {turns : List (Session σ)}
    (h : Elapses (Spares i) s turns now) (start : Counting i e 0 s) : StunLasts i e turns now := by
  obtain ⟨hturns, hnow⟩ := h.count (Q := Counting i e) (fun _ _ _ k hs => hs.keep k)
    (fun _ _ clear hu => hu.ends clear) start
  simp only [Nat.zero_add] at hturns hnow
  constructor
  · intro n u hn early
    obtain ⟨clear, hu⟩ := hturns n u hn
    exact ⟨hu.held (Nat.le_of_lt early), (hu.ends clear).held early⟩
  · intro n u hn
    obtain ⟨clear, hu⟩ := hturns n u hn
    exact (hu.ends clear).stunned
  · intro n u hn late awake
    obtain ⟨clear, hu⟩ := hturns n u hn
    have hfree : u.play.stunned.has i = false := by
      rw [Bool.eq_false_iff]
      intro stunned
      have hearly := hu.stunned.1 stunned
      omega
    exact endTurn_ticks clear hu.deep awake (List.getElem?_eq_getElem hu.there) hfree
  · exact hnow.held
  · exact hnow.stunned

theorem gapLasts_of_open {p : Position} {s now : Session σ} {turns : List (Session σ)}
    (h : Elapses (Gapes p) s turns now) (start : OpenGap p 0 s) : GapLasts p turns now := by
  obtain ⟨hturns, hnow⟩ := h.count (Q := OpenGap p) (fun _ _ _ k hs => hs.keep k)
    (fun _ _ clear hu => hu.ends clear) start
  simp only [Nat.zero_add] at hturns hnow
  constructor
  · intro n u hn early
    exact (hturns n u hn).2.passable early
  · intro n u hn early
    obtain ⟨clear, hu⟩ := hturns n u hn
    exact (hu.ends clear).passable early
  · exact hnow.passable

theorem gapCloses_of_gap {p : Position} {s now : Session σ} {turns : List (Session σ)}
    (h : Elapses (Leaves p) s turns now) (start : Gap p 0 s) : GapCloses p turns now := by
  obtain ⟨hturns, hnow⟩ := h.count (Q := Gap p) (fun _ _ _ k hs => hs.keep k)
    (fun _ _ clear hu => hu.ends clear) start
  simp only [Nat.zero_add] at hturns hnow
  constructor
  · intro n u hn late
    obtain ⟨clear, hu⟩ := hturns n u hn
    exact (hu.ends clear).closed late
  · exact hnow.closed

/-- When a laser has hit an enemy, no turn has ended yet of those that its stun lasts. -/
theorem counting_of_stuns {levels : List LevelSpec} {s t : Session σ} {c : Command} {p : Position} {i : Nat}
    (h : Reachable levels s) (deep : enemyLevelIndex ≤ s.level) (fires : (Visit.mk s c).Fires (t, .laserEnemy p))
    (found : s.play.board.enemyAt? p = some i) :
    ∃ e, s.play.board.enemies[i]? = some e ∧ Counting i e 0 t := by
  obtain ⟨there, -⟩ := List.findIdx?_eq_some_iff_getElem.1 found
  refine ⟨s.play.board.enemies[i], List.getElem?_eq_getElem there, ?_⟩
  have hshot := fires_shot fires.2
  generalize ho : (t, Reply.laserEnemy p) = o at hshot
  cases hshot with
  | misses enemy obstacle =>
    cases ho
    exact absurd rfl (enemy p)
  | @stuns q j found' =>
    cases ho
    have hsame : s.play.board.enemyAt? p = some j := found'
    rw [hsame] at found
    cases found
    exact
      { deep := decide_eq_true deep
        once := h.countsOnce.1.set i stunTurns
        left := (Countdown.left?_set _ _ _ _).trans (if_pos rfl)
        there := there
        held := fun _ => List.getElem?_eq_getElem there }
  | removes blocked => cases ho

theorem gap_of_removes {levels : List LevelSpec} {s t : Session σ} {c : Command} {p : Position}
    (h : Reachable levels s) (fires : (Visit.mk s c).Fires (t, .laserObstacle p)) : Gap p 0 t := by
  have hshot := fires_shot fires.2
  generalize ho : (t, Reply.laserObstacle p) = o at hshot
  cases hshot with
  | misses enemy obstacle =>
    cases ho
    exact absurd rfl (obstacle p)
  | stuns found => cases ho
  | @removes q blocked =>
    cases ho
    exact ⟨h.countsOnce.2.set p removalTurns, (Countdown.left?_set _ _ _ _).trans (if_pos rfl)⟩

/-- Stuns and gaps last exactly as long as announced. The turns are those in which the commands from the laser on
end a turn (`worldTurns`), each step of a search among them. As long as no level is entered and no enemy is met, a
stun lasts `stunTurns` of them, unless the enemy is hit again, and a gap `removalTurns`; then the obstacle is back,
unless it is hit again. A command that is idle ends no turn and changes neither count. -/
theorem laser_lasts {levels : List LevelSpec} {s : Session σ} {c : Command} {commands : List Command}
    (h : Reachable levels s) (deep : enemyLevelIndex ≤ s.level) (stays : ∀ v ∈ visits (c :: commands) s, v.Stays) :
    (∀ i, (Visit.mk s c).Stuns i → (∀ v ∈ visits commands (s.execute c).1, ¬ v.Stuns i) →
        ∃ e, s.play.board.enemies[i]? = some e ∧
          StunLasts i e (worldTurns (c :: commands) s) (after (c :: commands) s)) ∧
      (∀ p, (Visit.mk s c).Removes p →
        GapLasts p (worldTurns (c :: commands) s) (after (c :: commands) s) ∧
          ((∀ v ∈ visits commands (s.execute c).1, ¬ v.Removes p) →
            GapCloses p (worldTurns (c :: commands) s) (after (c :: commands) s))) ∧
      ∀ v : Visit σ, Reachable levels v.before → v.Idle →
        v.turnEnds = [] ∧ v.after.play.stunned = v.before.play.stunned ∧
          v.after.play.removed = v.before.play.removed := by
  refine ⟨?_, ?_, ?_⟩
  · rintro i ⟨t, p, fires, found⟩ noHit
    obtain ⟨e, he, hstart⟩ := counting_of_stuns h deep fires found
    have helapses := shot_elapses (spares_calm i) h fires stays fun v hv o => spares_of_fires (noHit v hv)
    exact ⟨e, he, stunLasts_of_counting helapses hstart⟩
  · rintro p ⟨t, fires⟩
    have hstart := gap_of_removes h fires
    refine ⟨?_, fun noHit => ?_⟩
    · have helapses := shot_elapses (gapes_calm p) h fires stays fun v _ o => gapes_of_fires
      exact gapLasts_of_open helapses ⟨hstart.once, fun _ => hstart.left⟩
    · have helapses := shot_elapses (leaves_calm p) h fires stays fun v hv o => leaves_of_fires (noHit v hv)
      exact gapCloses_of_gap helapses hstart
  · intro v hv idle
    have hquiet := idle_quiet hv.wellFormed idle
    exact ⟨(idle_spec idle).2.1, hquiet.stunned, hquiet.removed⟩

/-- The robot stuns the enemy, and tries a door that is not there until the enemy has its turn again. -/
def stunning : List Command := .laserDirection .right :: List.replicate 5 (.openDoor true)

/-- The robot destroys the door of the courtyard, and stuns the enemy that has come next to it. -/
def breaking : List Command := [.laserTile ⟨1, 1⟩, .setAutoGrab true, .laserDirection .right]

theorem laser_lasts_courtyard :
    (∃ u, (worldTurns stunning inCourtyard)[5]? = some u ∧ u.TicksEnemy 0) ∧
      (after stunning inCourtyard).play.stunned.has 0 = false ∧
      (worldTurns breaking inCourtyard).length = 2 ∧
      (after breaking inCourtyard).isBlocked ⟨1, 1⟩ = (after breaking inCourtyard).play.board.isBlocked ⟨1, 1⟩ := by
  have hreachable : Reachable courtyards.levels inCourtyard := .start rfl inCourtyard_starts
  have deep : enemyLevelIndex ≤ inCourtyard.level := by decide
  have staysStunning : ∀ v ∈ visits stunning inCourtyard, v.Stays := visits_stay (by decide) (by decide +kernel)
  have staysBreaking : ∀ v ∈ visits breaking inCourtyard, v.Stays := visits_stay (by decide) (by decide +kernel)
  obtain ⟨hstun, -⟩ := laser_lasts hreachable deep staysStunning
  obtain ⟨-, hgap, -⟩ := laser_lasts hreachable deep staysBreaking
  have hits : (Visit.mk inCourtyard (.laserDirection .right)).Stuns 0 := by
    have reply : (inCourtyard.apart.fireDirection Heading.right.step).2 = .laserEnemy ⟨2, 0⟩ := by decide +kernel
    exact ⟨_, ⟨2, 0⟩, ⟨by decide, congrArg some (Prod.ext rfl reply)⟩, by decide⟩
  have breaks : (Visit.mk inCourtyard (.laserTile ⟨1, 1⟩)).Removes ⟨1, 1⟩ := by
    have reply : (inCourtyard.apart.fireTile ⟨1, 1⟩).2 = .laserObstacle ⟨1, 1⟩ := by decide +kernel
    exact ⟨_, ⟨by decide, congrArg some (Prod.ext rfl reply)⟩⟩
  have noHit : ∀ v ∈ visits (List.replicate 5 (.openDoor true)) (inCourtyard.execute (.laserDirection .right)).1,
      ¬ v.Stuns 0 := by
    rintro v hv ⟨t, p, fires, -⟩
    have hdoor : v.command = .openDoor true := List.eq_of_mem_replicate (command_mem_of_visits hv)
    have hfires := fires.2
    rw [hdoor] at hfires
    cases hfires
  have noBreak : ∀ v ∈ visits [.setAutoGrab true, .laserDirection .right]
      (inCourtyard.execute (.laserTile ⟨1, 1⟩)).1, ¬ v.Removes ⟨1, 1⟩ := by
    simp only [visits, List.forall_mem_cons]
    refine ⟨?_, ?_, fun v hv => (List.not_mem_nil hv).elim⟩
    · rintro ⟨t, fires⟩
      cases fires.2
    · rintro ⟨t, fires⟩
      have hreply := congrArg Prod.snd (Option.some.inj fires.2)
      have reply : (((inCourtyard.execute (.laserTile ⟨1, 1⟩)).1.execute (.setAutoGrab true)).1.apart.fireDirection
          Heading.right.step).2 = .laserEnemy ⟨1, 0⟩ := by decide +kernel
      cases reply.symm.trans hreply
  obtain ⟨e, -, hlasts⟩ := hstun 0 hits noHit
  have hcloses := (hgap ⟨1, 1⟩ breaks).2 noBreak
  have six : (worldTurns stunning inCourtyard).length = 6 := by decide +kernel
  have two : (worldTurns breaking inCourtyard).length = 2 := by decide +kernel
  have awake : (worldTurns stunning inCourtyard)[5]?.map (·.play.enemiesPaused) = some false := by decide +kernel
  obtain ⟨u, last, unpaused⟩ := Option.map_eq_some_iff.1 awake
  refine ⟨⟨u, last, hlasts.ticked 5 u last (by decide) unpaused⟩, ?_, two, hcloses.barredNow (Nat.le_of_eq two.symm)⟩
  rw [Bool.eq_false_iff]
  intro stunned
  have hearly : (worldTurns stunning inCourtyard).length < stunTurns := hlasts.listedNow.1 stunned
  rw [six] at hearly
  exact absurd hearly (by decide)

end Session

end ScriptedRobot
