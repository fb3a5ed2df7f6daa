import Mathlib.Logic.Relation
import ScriptedRobot.Session.Turn

/-!
# The small steps of a turn

Whatever a command does within a level is a sequence of small steps, each of which changes one thing.
`Step` lists them by kind with the conditions under which they are taken, so that what every command
keeps need only be shown of every small step, and what some commands keep of the kinds of step that they
take. The one exception is that the robot and an enemy meet: `Encounter` lists the ways in which they do,
and `Outcome` says that an operation either goes through small steps alone, or goes through small steps
to an encounter and then resets the level.
-/

namespace ScriptedRobot

/-- The kinds of small step. -/
inductive Deed where
  | spend
  | look
  | walk
  | collect
  | claim
  | tell
  | scan
  | door
  | stun
  | remove
  | enemies
  | tick
  | pause
  | autoGrab
  | print
  | complain
  | giveUp
  | finish
  | answer
  deriving DecidableEq

namespace Deed

/-- What ending a turn takes. -/
def ofTurn : List Deed := [enemies, tick]

/-- What a grab takes. -/
def ofGrab : List Deed := [collect, claim, tell]

/-- What a laser does. -/
def ofLaser : List Deed := [stun, remove]

/-- What a move takes. -/
def ofMove : List Deed := [spend, look, walk] ++ ofGrab ++ ofTurn

end Deed

/-- The kinds of step that a command takes within a level. -/
def Command.deeds : Command → List Deed
  | move _ => Deed.ofMove
  | grab => Deed.ofGrab ++ Deed.ofTurn
  | scan _ => .scan :: Deed.ofTurn
  | searchAll => .pause :: Deed.ofMove
  | setAutoGrab _ => [.autoGrab]
  | laserDirection _ => Deed.ofLaser ++ Deed.ofTurn
  | laserTile _ => Deed.ofLaser ++ Deed.ofTurn
  | openDoor _ => .door :: Deed.ofTurn
  | skipLevel => []
  | gotoLevel _ => []
  | println _ => [.print]
  | eprintln _ => [.complain]
  | panic _ => [.giveUp]

namespace Session

open Relation

variable {σ : Type}

/-- Do lasers work? -/
def IsArmed (s : Session σ) : Prop :=
  enemyLevelIndex ≤ s.level ∨ 0 < s.play.robot.upgrades.attackRange

/-- A sweep takes orthogonal steps. -/
theorem sweepStep_heading {s : Session σ} {toRight toRight' : Bool} {step : Position}
    (h : s.sweepStep? toRight = some (step, toRight')) : ∃ heading : Heading, step = heading.step := by
  obtain ⟨heading, he⟩ : ∃ heading : Heading,
      (if toRight then Heading.right.step else Heading.left.step) = heading.step := by
    cases toRight with
    | true => exact ⟨.right, rfl⟩
    | false => exact ⟨.left, rfl⟩
  unfold sweepStep? at h
  simp only [he] at h
  split at h
  · cases h
    exact ⟨heading, rfl⟩
  · split at h
    · cases h
      exact ⟨.down, rfl⟩
    · cases h

variable [WordSource σ]

/-- One small step. -/
inductive Step : Session σ → Deed → Session σ → Prop where
  /-- A move is counted as a turn. -/
  | spend (s : Session σ) : Step s .spend (s.onPlay fun p => { p with turns := p.turns + 1 })
  /-- A barred move shows the surroundings of the robot. -/
  | look (s : Session σ) : Step s .look (s.onBoard fun b => b.revealAround s.play.robot.position)
  /-- The robot goes to a neighbouring tile that is not barred, and no enemy is there. -/
  | walk {s : Session σ} (h : Heading)
      (inside : s.play.board.inBounds (s.play.robot.position + h.step) = true)
      (way : s.isBlocked (s.play.robot.position + h.step) = false)
      (clear : (s.stepOnto (s.play.robot.position + h.step)).meetsEnemy = false) :
      Step s .walk (s.stepOnto (s.play.robot.position + h.step))
  /-- An item is collected. -/
  | collect {s : Session σ} {p : Position} {i : Item} {items : ItemStore}
      (found : s.play.items.collectAt p = (some i, items)) :
      Step s .collect ((s.onPlay fun play => { play with items := items }).applyItem i)
  /-- The tiles in reach are claimed. -/
  | claim (s : Session σ) : Step s .claim (s.claim s.reach).1
  /-- A tile is scanned. -/
  | scan {s : Session σ} {p : Position} (way : s.isBlocked p = false) :
      Step s .scan (s.onPlay fun play =>
        { play with
          board := play.board.reveal p
          discovered := play.discovered + if s.play.board.isHidden p then 1 else 0 })
  /-- A door is opened or closed. -/
  | door (s : Session σ) (p : Position) (wide : Bool) :
      Step s .door (s.onBoard fun b => if wide then b.openDoor p else b.closeDoor p)
  /-- A laser stuns an enemy. -/
  | stun {s : Session σ} {p : Position} {i : Nat} (armed : s.IsArmed)
      (inside : s.play.board.inBounds p = true) (found : s.play.board.enemyAt? p = some i) :
      Step s .stun (s.onPlay fun play => { play with stunned := play.stunned.set i stunTurns })
  /-- A laser removes an obstacle. -/
  | remove {s : Session σ} {p : Position} (armed : s.IsArmed)
      (inside : s.play.board.inBounds p = true) (blocked : s.isBlocked p = true) :
      Step s .remove (s.onPlay fun play => { play with removed := play.removed.set p removalTurns })
  /-- The enemies move, and none of them to the robot. -/
  | enemies {s : Session σ} (deep : s.hasEnemies = true) (awake : s.play.enemiesPaused = false)
      (clear : s.moveEnemies.meetsEnemy = false) : Step s .enemies s.moveEnemies
  /-- What lasts a number of turns runs down. -/
  | tick (s : Session σ) : Step s .tick s.tickStatus
  /-- The enemies are told to stand still, or no longer. -/
  | pause (s : Session σ) (paused : Bool) :
      Step s .pause (s.onPlay fun p => { p with enemiesPaused := paused })
  /-- Grabbing at every step is switched on or off. -/
  | autoGrab (s : Session σ) (on : Bool) :
      Step s .autoGrab (s.onRobot fun r => { r with autoGrab := on })
  /-- A text is printed. -/
  | print (s : Session σ) (text : String) :
      Step s .print (s.onPlay fun p => { p with printed := p.printed ++ [text] })
  /-- An error is printed. -/
  | complain (s : Session σ) (text : String) :
      Step s .complain (s.onPlay fun p => { p with errors := p.errors ++ [text] })
  /-- The script gives up. -/
  | giveUp (s : Session σ) : Step s .giveUp (s.onPlay fun p => { p with panicked := true })
  /-- The level is completed. -/
  | finish {s : Session σ} (unfinished : s.play.finished = false) (complete : s.isComplete = true) :
      Step s .finish s.finish
  /-- What a grab has collected is reported. -/
  | tell (s : Session σ) (names : List String) : Step s .tell (s.report (.itemsCollected names))
  /-- The answer to a command is reported. -/
  | answer (s : Session σ) (kind : CommandKind) (text : String) :
      Step s .answer (s.report (.executed kind text))

/-- A sequence of small steps. -/
abbrev Steps : Session σ → Session σ → Prop := ReflTransGen fun s t => ∃ d, Step s d t

/-- A sequence of small steps of some kinds. -/
abbrev StepsOf (ds : List Deed) : Session σ → Session σ → Prop :=
  ReflTransGen fun s t => ∃ d ∈ ds, Step s d t

/-- The ways in which the robot and an enemy meet: the robot goes to the enemy, or the enemy to the
robot. -/
inductive Encounter : Session σ → Session σ → Prop where
  /-- The robot goes to an enemy. -/
  | walk {s : Session σ} (h : Heading)
      (inside : s.play.board.inBounds (s.play.robot.position + h.step) = true)
      (way : s.isBlocked (s.play.robot.position + h.step) = false)
      (meets : (s.stepOnto (s.play.robot.position + h.step)).meetsEnemy = true) :
      Encounter s (s.stepOnto (s.play.robot.position + h.step))
  /-- An enemy goes to the robot. -/
  | enemies {s : Session σ} (deep : s.hasEnemies = true) (awake : s.play.enemiesPaused = false)
      (meets : s.moveEnemies.meetsEnemy = true) : Encounter s s.moveEnemies

/-- What an operation of a turn can lead to that takes steps of some kinds. -/
inductive Outcome (ds : List Deed) (s : Session σ) : Session σ → Prop where
  /-- It goes through small steps alone. -/
  | settled {t : Session σ} (steps : StepsOf ds s t) : Outcome ds s t
  /-- It comes to an encounter, and the level is reset. -/
  | reset {t u : Session σ} (steps : StepsOf ds s t) (met : Encounter t u) : Outcome ds s u.collide

theorem Step.collided {d : Deed} {s t : Session σ} (h : Step s d t) : t.collided = s.collided := by
  cases h with
  | collect found =>
    simp only [applyItem]
    split
    · rfl
    · split <;> rfl
  | _ => rfl

theorem Steps.collided {s t : Session σ} (h : Steps s t) : t.collided = s.collided := by
  induction h with
  | refl => rfl
  | tail _ hstep ih =>
    obtain ⟨d, hstep⟩ := hstep
    exact hstep.collided.trans ih

variable {ds es : List Deed}

theorem Step.steps {d : Deed} {s t : Session σ} (h : Step s d t) (hd : d ∈ ds) : StepsOf ds s t := .single ⟨d, hd, h⟩

theorem StepsOf.mono {s t : Session σ} (h : StepsOf ds s t) (sub : ∀ d ∈ ds, d ∈ es) : StepsOf es s t :=
  ReflTransGen.mono (fun _ _ ⟨d, hd, hstep⟩ => ⟨d, sub d hd, hstep⟩) s t h

/-- Whatever the kinds of the steps, they are small steps. -/
theorem StepsOf.steps {s t : Session σ} (h : StepsOf ds s t) : Steps s t :=
  ReflTransGen.mono (fun _ _ ⟨d, _, hstep⟩ => ⟨d, hstep⟩) s t h

/-- What no step of these kinds changes stays as it is. -/
theorem StepsOf.unchanged {α : Type} (f : Session σ → α) {s t : Session σ} (h : StepsOf ds s t)
    (keeps : ∀ {d : Deed} {s t : Session σ}, d ∈ ds → Step s d t → f t = f s) : f t = f s := by
  induction h with
  | refl => rfl
  | tail _ hstep ih =>
    obtain ⟨d, hd, hstep⟩ := hstep
    exact (keeps hd hstep).trans ih

/-- An operation after which robot and enemy have not met went through small steps alone. -/
theorem Outcome.steps {s t : Session σ} (h : Outcome ds s t) (ht : t.collided = false) :
    StepsOf ds s t := by
  cases h with
  | settled steps => exact steps
  | reset steps met => cases ht

theorem Outcome.after {s t u : Session σ} (h : StepsOf ds s t) (k : Outcome ds t u) :
    Outcome ds s u := by
  cases k with
  | settled steps => exact .settled (h.trans steps)
  | reset steps met => exact .reset (h.trans steps) met

theorem Outcome.mono {s t : Session σ} (h : Outcome ds s t) (sub : ∀ d ∈ ds, d ∈ es) : Outcome es s t := by
  cases h with
  | settled steps => exact .settled (steps.mono sub)
  | reset steps met => exact .reset (steps.mono sub) met

/-! ## Grabbing, scanning, doors -/

theorem collectAll_steps (ps : List Position) (s : Session σ) :
    StepsOf [.collect] s (collectAll ps s).1 := by
  induction ps generalizing s with
  | nil => exact .refl
  | cons p ps ih =>
    rcases hc : s.play.items.collectAt p with ⟨_ | i, items⟩
    · simp only [collectAll, hc]
      exact ih s
    · simp only [collectAll, hc]
      exact ((Step.collect hc).steps (by decide)).trans (ih _)

theorem grab_steps (s : Session σ) : StepsOf Deed.ofGrab s s.grab.1 := by
  have hcollect : StepsOf Deed.ofGrab s (collectAll s.reach s).1 := (collectAll_steps s.reach s).mono (by decide)
  have hclaim := hcollect.trans ((Step.claim _).steps (by decide))
  simp only [grab]
  split
  · exact hclaim
  · exact hclaim.trans ((Step.tell _ _).steps (by decide))

theorem scanAll_steps (ps : List Position) (s : Session σ) : StepsOf [.scan] s (scanAll ps s).1 := by
  induction ps generalizing s with
  | nil => exact .refl
  | cons p ps ih =>
    simp only [scanAll]
    split
    · exact .refl
    · rename_i way
      exact ((Step.scan (by simpa using way)).steps (by decide)).trans (ih _)

theorem turnDoor_steps (s : Session σ) (wide : Bool) : StepsOf [.door] s (s.turnDoor wide).1 := by
  unfold turnDoor
  split
  · exact .refl
  · split
    · exact .refl
    · exact (Step.door s _ wide).steps (by decide)

/-! ## Lasers -/

theorem laserHit_steps {s t : Session σ} {p : Position} {r : Reply} (armed : s.IsArmed)
    (inside : s.play.board.inBounds p = true) (h : s.laserHit p = some (t, r)) :
    StepsOf Deed.ofLaser s t := by
  unfold laserHit at h
  split at h
  · rename_i found
    cases h
    exact (Step.stun armed inside found).steps (by decide)
  · split at h
    · rename_i blocked
      cases h
      exact (Step.remove armed inside blocked).steps (by decide)
    · cases h

theorem laserFrom_steps {s : Session σ} (armed : s.IsArmed) (step : Position) (count : Nat) (p : Position) :
    StepsOf Deed.ofLaser s (s.laserFrom step count p).1 := by
  induction count generalizing p with
  | zero => exact .refl
  | succ count ih =>
    simp only [laserFrom]
    split
    · exact .refl
    · rename_i inside
      split
      · rename_i hit
        exact laserHit_steps armed (by simpa using inside) hit
      · exact ih _

theorem fireDirection_steps {s : Session σ} (armed : s.IsArmed) (step : Position) :
    StepsOf Deed.ofLaser s (s.fireDirection step).1 :=
  laserFrom_steps armed step s.laserLength s.play.robot.position

theorem fireTile_steps {s : Session σ} (armed : s.IsArmed) (p : Position) :
    StepsOf Deed.ofLaser s (s.fireTile p).1 := by
  unfold fireTile
  split
  · exact .refl
  · rename_i inside
    cases hit : s.laserHit p with
    | none => exact .refl
    | some outcome => exact laserHit_steps armed (by simpa using inside) hit

/-! ## Turns and moves -/

theorem endTurn_outcome (s : Session σ) : Outcome Deed.ofTurn s s.endTurn := by
  unfold endTurn
  split
  · rename_i h
    have awake : s.play.enemiesPaused = false := by simpa using h.2
    by_cases hm : s.moveEnemies.meetsEnemy = true
    · simp only [hm]
      exact .reset .refl (.enemies h.1 awake hm)
    · simp only [Bool.not_eq_true] at hm
      simp only [hm]
      exact .settled (((Step.enemies h.1 awake hm).steps (by decide)).trans ((Step.tick _).steps (by decide)))
  · exact .settled ((Step.tick s).steps (by decide))

/-- What acts and then ends the turn takes the steps of both. -/
theorem StepsOf.thenEndTurn {s t : Session σ} (h : StepsOf ds s t) :
    Outcome (ds ++ Deed.ofTurn) s t.endTurn :=
  .after (h.mono fun _ => List.mem_append_left _)
    ((endTurn_outcome t).mono fun _ => List.mem_append_right _)

theorem scan_outcome (s : Session σ) (step : Position) :
    Outcome (.scan :: Deed.ofTurn) s (s.scan step).1 := by
  have h := scanAll_steps (s.play.robot.scannerTiles step s.play.board.width s.play.board.height) s
  unfold scan
  simp only
  split
  · rename_i hs
    rw [hs] at h
    exact .settled (h.mono (by decide))
  · rename_i hs
    rw [hs] at h
    exact h.thenEndTurn

theorem move_outcome (s : Session σ) (h : Heading) : Outcome Deed.ofMove s (s.move h.step).1 := by
  have hspend : StepsOf Deed.ofMove s (s.onPlay fun p => { p with turns := p.turns + 1 }) :=
    (Step.spend s).steps (by decide)
  unfold move
  simp only
  split
  · exact .settled hspend
  · rename_i inside
    simp only [Bool.not_eq_true', Bool.not_eq_false] at inside
    split
    · exact .settled (hspend.trans ((Step.look _).steps (by decide)))
    · rename_i way
      simp only [Bool.not_eq_true] at way
      split
      · rename_i meets
        exact .reset hspend (.walk h inside way meets)
      · rename_i clear
        simp only [Bool.not_eq_true] at clear
        have hwalk := hspend.trans ((Step.walk h inside way clear).steps (by decide))
        refine .after ?_ ((endTurn_outcome _).mono (by decide))
        split
        · exact hwalk.trans ((grab_steps _).mono (by decide))
        · exact hwalk

/-! ## Searching -/

/-- On the way to the corner the search goes step by step, and where it arrives nothing has met. -/
theorem homeAlong_outcome (h : Heading) (left : Nat) (s : Session σ) :
    Outcome Deed.ofMove s (homeAlong h.step left s).1 ∧
      ∀ k, (homeAlong h.step left s).2 = .ok k → StepsOf Deed.ofMove s (homeAlong h.step left s).1 := by
  induction left generalizing s with
  | zero => exact ⟨.settled .refl, fun _ _ => .refl⟩
  | succ left ih =>
    simp only [homeAlong]
    split
    · exact ⟨.settled .refl, fun _ _ => .refl⟩
    · split
      · exact ⟨.settled .refl, fun _ _ => .refl⟩
      · split
        · exact ⟨move_outcome s h, fun k hk => nomatch hk⟩
        · rename_i hc
          have hmove := (move_outcome s h).steps (by simpa using hc)
          obtain ⟨ho, hok⟩ := ih (s.move h.step).1
          exact ⟨.after hmove ho, fun k hk => hmove.trans (hok k hk)⟩

theorem sweep_outcome (before : Nat) (toRight : Bool) (left : Nat) (s : Session σ) :
    Outcome Deed.ofMove s (sweep before toRight left s).1 := by
  induction left generalizing toRight s with
  | zero =>
    unfold sweep
    simp only
    split <;> exact .settled .refl
  | succ left ih =>
    unfold sweep
    simp only
    split
    · exact .settled .refl
    · split
      · exact .settled .refl
      · rename_i hstep
        obtain ⟨h, rfl⟩ := sweepStep_heading hstep
        split
        · exact move_outcome s h
        · rename_i hc
          exact .after ((move_outcome s h).steps (by simpa using hc)) (ih _ _)

theorem searchFrom_outcome (s : Session σ) : Outcome Deed.ofMove s s.searchFrom.1 := by
  obtain ⟨hup, hupOk⟩ := homeAlong_outcome .up homingLimit s
  unfold searchFrom
  simp only
  split
  · rename_i he
    rw [he] at hup
    exact hup
  · rename_i t left he
    have ht : StepsOf Deed.ofMove s t := by simpa only [he] using hupOk left (by rw [he])
    obtain ⟨hleft, hleftOk⟩ := homeAlong_outcome .left left t
    split
    · rename_i he'
      rw [he'] at hleft
      exact .after ht hleft
    · rename_i u k he'
      have hu : StepsOf Deed.ofMove t u := by simpa only [he'] using hleftOk k (by rw [he'])
      exact .after (ht.trans hu) (sweep_outcome _ _ _ u)

/-- A level that has been reset has its enemies awake, so waking them again after the search changes
nothing. -/
theorem searchAll_outcome (s : Session σ) : Outcome (.pause :: Deed.ofMove) s s.searchAll.1 := by
  have hpause : StepsOf (.pause :: Deed.ofMove) s (s.onPlay fun p => { p with enemiesPaused := true }) :=
    (Step.pause s true).steps (by decide)
  have hsearch := searchFrom_outcome (s.onPlay fun p => { p with enemiesPaused := true })
  have hwake : Outcome (.pause :: Deed.ofMove) s
      ((s.onPlay fun p => { p with enemiesPaused := true }).searchFrom.1.onPlay
        fun p => { p with enemiesPaused := false }) := by
    generalize (s.onPlay fun p => { p with enemiesPaused := true }).searchFrom.1 = t at hsearch
    cases hsearch with
    | settled steps =>
      exact .settled ((hpause.trans (steps.mono (by decide))).trans ((Step.pause _ false).steps (by decide)))
    | reset steps met => exact .reset (hpause.trans (steps.mono (by decide))) met
  exact hwake

end Session

end ScriptedRobot
