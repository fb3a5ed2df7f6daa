import ScriptedRobot.Proofs.Session.Lasting

/-!
# What lasts is in order between commands

Stuns and gaps belong to the board that is played: a level that is entered, or entered again, has none, and a laser
only makes one where there is an enemy or an obstacle. `InOrder` says so of a session, with a bound on the turns that
are left. A laser may give more of them than are left between commands, and its own end of turn takes the one too many.
Nothing ever extends the reach of the laser, so it works on levels with enemies and nowhere else.
-/

namespace ScriptedRobot

namespace Countdown

variable {κ : Type} [DecidableEq κ] {c : Countdown κ} {fits : κ → Prop} {k k' : κ} {m n most : Nat}

theorem mem_of_mem_set (h : (k', n) ∈ (c.set k m).entries) : (k' = k ∧ n = m) ∨ (k', n) ∈ c.entries := by
  rcases List.mem_cons.1 h with h | h
  · exact .inl (Prod.mk.inj h)
  · exact .inr (List.mem_filter.1 h).1

omit [DecidableEq κ] in
/-- Every key is one that fits, and has turns left, but no more than so many. -/
def Within (fits : κ → Prop) (most : Nat) (c : Countdown κ) : Prop :=
  ∀ k n, (k, n) ∈ c.entries → fits k ∧ 1 ≤ n ∧ n ≤ most

namespace Within

omit [DecidableEq κ] in
theorem of_nil (h : c.entries = []) : c.Within fits most := by
  intro k n hk
  rw [h] at hk
  cases hk

omit [DecidableEq κ] in
theorem mono {fits' : κ → Prop} {most' : Nat} (h : c.Within fits most) (sub : ∀ k, fits k → fits' k)
    (le : most ≤ most') : c.Within fits' most' := by
  intro k n hk
  obtain ⟨hfits, pos, hmost⟩ := h k n hk
  exact ⟨sub k hfits, pos, hmost.trans le⟩

theorem set (h : c.Within fits most) (hk : fits k) (pos : 1 ≤ m) (le : m ≤ most) :
    (c.set k m).Within fits most := by
  intro k' n hk'
  rcases mem_of_mem_set hk' with ⟨rfl, rfl⟩ | hk'
  · exact ⟨hk, pos, le⟩
  · exact h k' n hk'

omit [DecidableEq κ] in
/-- A tick takes the last turn of what has one more. -/
theorem tick (h : c.Within fits (most + 1)) : c.tick.Within fits most := by
  intro k n hk
  obtain ⟨hk, pos⟩ := mem_tick.1 hk
  obtain ⟨hfits, -, hmost⟩ := h k (n + 1) hk
  exact ⟨hfits, pos, Nat.le_of_succ_le_succ hmost⟩

end Within

end Countdown

/-- On the tile of the board stands a blocker or a door. -/
def Board.HasObstacle (b : Board) (p : Position) : Prop := b.inBounds p = true ∧ (p ∈ b.blockers ∨ p ∈ b.doors)

theorem Board.hasObstacle_of_blocked {b : Board} {removed : Position → Bool} {p : Position}
    (inside : b.inBounds p = true) (blocked : b.isBlockedUnless removed p = true) : b.HasObstacle p := by
  simp only [isBlockedUnless, isBlocked, Bool.and_eq_true, Bool.or_eq_true, decide_eq_true_eq] at blocked
  exact ⟨inside, blocked.2.imp_right And.left⟩

/-- Enemies and obstacles of a board are still there when it has developed. -/
theorem Board.Develops.hasObstacle {b b' : Board} (h : b.Develops b') {p : Position} (hp : b.HasObstacle p) :
    b'.HasObstacle p := by
  refine ⟨(h.inBounds p).trans hp.1, ?_⟩
  rw [h.blockers, h.doors]
  exact hp.2

namespace Session

variable {σ : Type} {s t : Session σ} {stun gap : Nat}

/-- Stuns and gaps belong to the board, and last no longer than so many turns. -/
structure InOrder (stun gap : Nat) (s : Session σ) : Prop where
  /-- What is stunned is an enemy of the board. -/
  stunned : s.play.stunned.Within (· < s.play.board.enemies.length) stun
  /-- What is removed is an obstacle of the board. -/
  removed : s.play.removed.Within s.play.board.HasObstacle gap
  /-- Where lasers do not work there is neither. -/
  shallow : s.level < enemyLevelIndex → s.play.stunned.entries = [] ∧ s.play.removed.entries = []
  /-- The reach of the laser has never been extended. -/
  range : s.play.robot.upgrades.attackRange = 0
  /-- Nor had it when the level was entered. -/
  entered : s.play.entry.robot.upgrades.attackRange = 0

namespace InOrder

theorem of_play (h : InOrder stun gap s) (play : t.play = s.play) : InOrder stun gap t := by
  constructor
  · rw [play]; exact h.stunned
  · rw [play]; exact h.removed
  · rw [level, play]; exact h.shallow
  · rw [play]; exact h.range
  · rw [play]; exact h.entered

theorem mono {stun' gap' : Nat} (h : InOrder stun gap s) (hstun : stun ≤ stun') (hgap : gap ≤ gap') :
    InOrder stun' gap' s :=
  { h with stunned := h.stunned.mono (fun _ => id) hstun, removed := h.removed.mono (fun _ => id) hgap }

/-- While a level is played its enemies and obstacles stay, so only the counts need to be looked at. -/
theorem progress {stun' gap' : Nat} (h : InOrder stun gap s) (k : Progress s t)
    (range : t.play.robot.upgrades.attackRange = s.play.robot.upgrades.attackRange)
    (stunned : t.play.stunned.Within (· < s.play.board.enemies.length) stun')
    (removed : t.play.removed.Within s.play.board.HasObstacle gap')
    (shallow : s.level < enemyLevelIndex → t.play.stunned.entries = [] ∧ t.play.removed.entries = []) :
    InOrder stun' gap' t where
  stunned := stunned.mono (fun _ hi => hi.trans_eq k.board.length_enemies.symm) le_rfl
  removed := removed.mono (fun _ hp => k.board.hasObstacle hp) le_rfl
  shallow := by rw [level, k.entry]; exact shallow
  range := range.trans h.range
  entered := by rw [k.entry]; exact h.entered

theorem isArmed (h : InOrder stun gap s) : s.IsArmed ↔ enemyLevelIndex ≤ s.level := by
  rw [IsArmed, h.range]
  simp

end InOrder

/-! ## The reach of the laser -/

theorem attackRange_equip (r : Robot) (i : Item) :
    (equip r i).upgrades.attackRange = r.upgrades.attackRange := by rw [equip_eq]

variable [WordSource σ]

theorem Step.attackRange {d : Deed} (h : Step s d t) :
    t.play.robot.upgrades.attackRange = s.play.robot.upgrades.attackRange := by
  cases h with
  | collect found =>
    rename_i p i items
    obtain ⟨timeSlow, he⟩ := (s.onPlay fun play => { play with items := items }).applyItem_spec i
    rw [he]
    exact attackRange_equip s.play.robot i
  | _ => rfl

/-! ## What keeps stuns and gaps in order -/

namespace InOrder

/-- A level that has just begun has no stuns and no gaps. -/
theorem begun {g : σ} (play : s.play = (s.play.entry.begin g).1)
    (entered : s.play.entry.robot.upgrades.attackRange = 0) : InOrder stun gap s := by
  have hstunned : s.play.stunned.entries = [] := by rw [play]; rfl
  have hremoved : s.play.removed.entries = [] := by rw [play]; rfl
  have hrobot : s.play.robot = s.play.entry.robot := by rw [play]; rfl
  refine ⟨.of_nil hstunned, .of_nil hremoved, fun _ => ⟨hstunned, hremoved⟩, ?_, entered⟩
  rw [hrobot]
  exact entered

omit [WordSource σ] in
theorem tickStatus (h : InOrder (stun + 1) (gap + 1) s) : InOrder stun gap s.tickStatus := by
  refine h.progress { Progress.refl s with } rfl h.stunned.tick h.removed.tick fun below => ?_
  obtain ⟨hstunned, hremoved⟩ := h.shallow below
  simp [Session.tickStatus, onPlay, Countdown.tick, hstunned, hremoved]

/-- A step keeps what lasts in order; that of a laser if there is room for the turns that it gives. -/
theorem step {d : Deed} (h : InOrder stun gap s) (hstep : Step s d t)
    (room : d ∈ Deed.ofLaser → stunTurns ≤ stun ∧ removalTurns ≤ gap) : InOrder stun gap t := by
  have hprogress := hstep.progress
  have hrange := hstep.attackRange
  have same := hstep.untouched
  cases hstep with
  | stun armed inside found =>
    have hfound := (List.findIdx?_eq_some_iff_findIdx_eq.1 found).1
    obtain ⟨hroom, -⟩ := room (by decide)
    refine h.progress hprogress hrange (h.stunned.set hfound (by decide) hroom) h.removed fun below => ?_
    exact absurd (h.isArmed.1 armed) (not_le.2 below)
  | remove armed inside blocked =>
    have hfound := Board.hasObstacle_of_blocked inside blocked
    obtain ⟨-, hroom⟩ := room (by decide)
    refine h.progress hprogress hrange h.stunned (h.removed.set hfound (by decide) hroom) fun below => ?_
    exact absurd (h.isArmed.1 armed) (not_le.2 below)
  | tick => exact (h.mono (Nat.le_succ _) (Nat.le_succ _)).tickStatus
  | _ =>
    have hstunned := same.stunned nofun nofun
    have hremoved := same.removed nofun nofun
    refine h.progress hprogress hrange ?_ ?_ fun below => ?_
    · rw [hstunned]; exact h.stunned
    · rw [hremoved]; exact h.removed
    · rw [hstunned, hremoved]; exact h.shallow below

theorem steps {ds : List Deed} (h : InOrder stun gap s) (k : StepsOf ds s t)
    (room : ∀ d ∈ ds, d ∈ Deed.ofLaser → stunTurns ≤ stun ∧ removalTurns ≤ gap := by decide) :
    InOrder stun gap t := by
  induction k with
  | refl => exact h
  | tail _ hstep ih =>
    obtain ⟨d, hd, hstep⟩ := hstep
    exact ih.step hstep (room d hd)

theorem collide (entered : s.play.entry.robot.upgrades.attackRange = 0) : InOrder stun gap s.collide :=
  begun (g := s.rng) rfl entered

/-- The end of a turn leaves one turn less, or the level begins again. -/
theorem endTurn (h : InOrder (stun + 1) (gap + 1) s) : InOrder stun gap s.endTurn := by
  have hmoved : InOrder (stun + 1) (gap + 1) s.moveEnemies := by
    have hprogress : Progress s s.moveEnemies := { Progress.refl s with board := Board.tickAll_develops _ _ _ _ }
    exact h.progress hprogress rfl h.stunned h.removed h.shallow
  unfold Session.endTurn
  split
  · simp only
    split
    · exact collide hmoved.entered
    · exact hmoved.tickStatus
  · exact h.tickStatus

/-- A laser gives more turns than are left between commands; the end of its own turn takes the one too many. -/
theorem shot (h : InOrder 4 1 s) {c : Command} {o : Session σ × Reply} (fires : (Visit.mk s c).Fires o) :
    InOrder 4 1 (s.execute c).1 := by
  have happart : InOrder 4 1 s.apart := h.of_play rfl
  have hfired : InOrder 5 2 o.1 := (happart.mono (by decide) (by decide)).steps (fires_steps fires)
  have hended : InOrder 4 1 o.1.endTurn := hfired.endTurn
  have hperform := perform_of_fires fires.2
  by_cases meets : o.1.endTurn.collided = true
  · rw [execute_met fires.1 hperform meets]
    exact hended.of_play rfl
  · rw [execute_answered fires.1 hperform (Bool.eq_false_iff.2 meets)]
    exact (hended.steps (checkCompletion_finish _)).of_play rfl

theorem execute (h : InOrder 4 1 s) (c : Command) : InOrder 4 1 (s.execute c).1 := by
  by_cases fires : ∃ o, (Visit.mk s c).Fires o
  · obtain ⟨o, fires⟩ := fires
    exact h.shot fires
  have happart : InOrder 4 1 s.apart := h.of_play rfl
  have heffect := execute_effect s c
  generalize s.execute c = outcome at heffect ⊢
  cases heffect with
  | refused _ => exact happart.of_play rfl
  | failed _ load =>
    obtain ⟨-, -, hplay⟩ := load_error load
    exact happart.of_play hplay
  | @entered i t r _ load =>
    obtain ⟨-, -, -, -, -, hbegin⟩ := load_ok load
    have hentered : InOrder 4 1 t := .begun hbegin (by
      rw [robot_of_load load]
      exact h.range)
    exact (hentered.steps (checkCompletion_finish t)).of_play rfl
  | @settled t r allowed _ steps =>
    have noLaser : ∀ d ∈ c.deeds, d ∉ Deed.ofLaser := by
      cases c with
      | laserDirection heading => exact absurd ⟨_, allowed, rfl⟩ fires
      | laserTile p => exact absurd ⟨_, allowed, rfl⟩ fires
      | _ => simp [Command.deeds, Deed.ofMove, Deed.ofGrab, Deed.ofLaser, Deed.ofTurn]
    have hsettled := happart.steps steps fun d hd laser => absurd laser (noLaser d hd)
    exact (hsettled.steps (checkCompletion_finish t)).of_play rfl
  | @met t u _ _ steps met =>
    have hentry : u.play.entry = s.play.entry := (steps.steps.progress.trans met.progress).entry
    have hagain : InOrder 4 1 u.collide := collide (hentry ▸ h.entered)
    exact hagain.of_play rfl

omit [WordSource σ] in
theorem reread (h : InOrder stun gap s) (load : Loader) : InOrder stun gap (s.withLoader load) where
  stunned := h.stunned
  removed := h.removed
  shallow := by rw [level_withLoader]; exact h.shallow
  range := h.range
  entered := by
    simp only [withLoader, onPlay, Campaign.refresh]
    split <;> exact h.entered

end InOrder

/-! ## All that can come about -/

variable {levels : List LevelSpec}

theorem Reachable.inOrder (h : Reachable levels s) : InOrder 4 1 s := by
  induction h with
  | start _ starts =>
    obtain ⟨-, -, -, -, hbegin⟩ := start_ok starts
    refine .begun hbegin ?_
    rw [robot_of_start starts]
    rfl
  | command _ c ih => exact ih.execute c
  | reread _ load ih => exact ih.reread load
  | records _ _ play _ ih => exact ih.of_play play

/-- Between two commands everything that lasts a number of turns is in order: no key is there twice; what is stunned is
an enemy of the board, with one to four turns left; what is removed is a blocker or a door of the board, with one turn
left. Before the first level with enemies there is neither. The reach of the laser is never extended, so a level allows
lasers exactly if it is one with enemies. -/
theorem status_in_order (h : Reachable levels s) :
    s.CountsOnce ∧
      (∀ i n, (i, n) ∈ s.play.stunned.entries → i < s.play.board.enemies.length ∧ 1 ≤ n ∧ n ≤ 4) ∧
      (∀ p n, (p, n) ∈ s.play.removed.entries →
        s.play.board.inBounds p = true ∧ (p ∈ s.play.board.blockers ∨ p ∈ s.play.board.doors) ∧ n = 1) ∧
      (s.level < 3 → s.play.stunned.entries = [] ∧ s.play.removed.entries = []) ∧
      s.play.robot.upgrades.attackRange = 0 ∧
      ∀ kind, kind = .laserDirection ∨ kind = .laserTile → (kind ∈ s.availableFunctions ↔ 3 ≤ s.level) := by
  have hs := h.inOrder
  refine ⟨h.countsOnce, fun i n => hs.stunned i n, ?_, hs.shallow, hs.range, ?_⟩
  · intro p n hp
    obtain ⟨⟨inside, obstacle⟩, pos, most⟩ := hs.removed p n hp
    exact ⟨inside, obstacle, Nat.le_antisymm most pos⟩
  · intro kind laser
    refine ⟨fun allowed => hs.isArmed.1 (isArmed_of_laser allowed laser), fun deep => ?_⟩
    have armed : s.level ≥ enemyLevelIndex ∨ s.play.robot.upgrades.attackRange > 0 := .inl deep
    rw [availableFunctions, Robot.availableFunctions, if_pos armed]
    rcases laser with rfl | rfl <;> simp

/-- The enemy of the courtyard has just been hit. -/
theorem status_in_order_courtyard :
    (0, 4) ∈ (inCourtyard.execute (.laserDirection .right)).1.play.stunned.entries ∧
      0 < (inCourtyard.execute (.laserDirection .right)).1.play.board.enemies.length := by
  have hreachable : Reachable courtyards.levels (inCourtyard.execute (.laserDirection .right)).1 :=
    (Reachable.start rfl inCourtyard_starts).command _
  have hit : (0, 4) ∈ (inCourtyard.execute (.laserDirection .right)).1.play.stunned.entries := by decide +kernel
  obtain ⟨-, hstunned, -⟩ := status_in_order hreachable
  exact ⟨hit, (hstunned 0 4 hit).1⟩

end Session

end ScriptedRobot
