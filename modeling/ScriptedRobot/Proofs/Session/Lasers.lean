import Mathlib
import ScriptedRobot.Proofs.Robot.Reach
import ScriptedRobot.Proofs.Session.Loops

/-!
# What a laser hits

The ray of a laser is the tiles ahead of the robot on the board, as far as the laser reaches. `Nearest` is the first of
them with something on it that stops a laser. That is where a shot acts, and there it does one thing: it `Strikes` an
enemy, or else an obstacle. A shot over a clear ray leaves everything as it is, and tells whether the laser went off
the board or got to the end of its reach (`laser_strikes_nearest`). Neither a well-formed board nor a level that can
come about is needed for that, only a robot that stands on the board.
-/

namespace ScriptedRobot

namespace Board

variable {b : Board} {p : Position}

/-- Between two tiles of the board in one direction are only tiles of the board. -/
theorem inBounds_along {h : Heading} {m n : Nat} (start : b.inBounds p = true)
    (inside : b.inBounds (p.along h.step n) = true) (le : m ≤ n) : b.inBounds (p.along h.step m) = true := by
  rw [inBounds, inside_iff] at start inside ⊢
  cases h <;> simp only [Position.along, Heading.step] at inside ⊢ <;> omega

theorem enemyAt?_eq_none_iff : b.enemyAt? p = none ↔ ∀ e ∈ b.enemies, e.position ≠ p := by
  simp [enemyAt?, List.findIdx?_eq_none_iff]

/-- The enemy that is found on a tile is the first one there. -/
theorem first_of_enemyAt? {i : Nat} (found : b.enemyAt? p = some i) :
    ∃ e, b.enemies[i]? = some e ∧ e.position = p ∧
      ∀ j d, j < i → b.enemies[j]? = some d → d.position ≠ p := by
  obtain ⟨hi, here, lowest⟩ := List.findIdx?_eq_some_iff_getElem.1 found
  refine ⟨b.enemies[i], List.getElem?_eq_getElem hi, by simpa using here, fun j d hj hd => ?_⟩
  obtain ⟨hlength, rfl⟩ := List.getElem?_eq_some_iff.1 hd
  simpa using lowest j hj

end Board

namespace Session

variable {σ : Type}

/-- Something on the tile stops a laser: an enemy, or an obstacle that has not been removed. -/
def Stops (s : Session σ) (p : Position) : Prop :=
  (∃ e ∈ s.play.board.enemies, e.position = p) ∨
    (s.play.board.isBlocked p = true ∧ s.play.removed.has p = false)

/-- The tile so many steps ahead of the robot is on the board, and a laser with a limit reaches it. -/
structure InRay (s : Session σ) (step : Position) (n : Nat) : Prop where
  ahead : 1 ≤ n
  inside : s.play.board.inBounds (s.play.robot.position.along step n) = true
  reached : 0 < s.play.robot.upgrades.attackRange → (n : Int) ≤ s.play.robot.upgrades.attackRange

/-- The tile so many steps ahead is the first one on the ray that stops a laser. -/
structure Nearest (s : Session σ) (step : Position) (n : Nat) : Prop where
  ray : s.InRay step n
  stops : s.Stops (s.play.robot.position.along step n)
  first : ∀ m < n, s.InRay step m → ¬ s.Stops (s.play.robot.position.along step m)

/-- What a laser does to a tile that stops it, with the answer: it stuns the first enemy there, or removes the obstacle
if there is no enemy, and changes nothing else. -/
inductive Strikes (s : Session σ) (p : Position) : Session σ × Reply → Prop where
  /-- The first enemy on the tile is stunned. -/
  | enemy {i : Nat} {e : Enemy} (found : s.play.board.enemies[i]? = some e) (here : e.position = p)
      (lowest : ∀ j d, j < i → s.play.board.enemies[j]? = some d → d.position ≠ p) :
      Strikes s p ({ s with play := { s.play with stunned := s.play.stunned.set i 5 } }, .laserEnemy p)
  /-- The obstacle is removed for a while. -/
  | obstacle (free : ∀ e ∈ s.play.board.enemies, e.position ≠ p) (blocked : s.play.board.isBlocked p = true)
      (stands : s.play.removed.has p = false) :
      Strikes s p ({ s with play := { s.play with removed := s.play.removed.set p 2 } }, .laserObstacle p)

variable {s : Session σ} {p step : Position}

/-- What stops a laser is struck by it. -/
theorem strikes_of_laserHit {outcome : Session σ × Reply} (h : s.laserHit p = some outcome) :
    s.Stops p ∧ s.Strikes p outcome := by
  unfold laserHit at h
  split at h
  · rename_i i found
    cases h
    obtain ⟨e, hi, here, lowest⟩ := Board.first_of_enemyAt? found
    exact ⟨.inl ⟨e, List.mem_of_getElem? hi, here⟩, .enemy hi here lowest⟩
  · rename_i free
    split at h
    · rename_i blocked
      cases h
      simp only [isBlocked, Board.isBlockedUnless, Bool.and_eq_true, Bool.not_eq_true'] at blocked
      exact ⟨.inr ⟨blocked.2, blocked.1⟩, .obstacle (Board.enemyAt?_eq_none_iff.1 free) blocked.2 blocked.1⟩
    · cases h

theorem not_stops_of_laserHit (h : s.laserHit p = none) : ¬ s.Stops p := by
  unfold laserHit at h
  split at h
  · cases h
  · rename_i free
    split at h
    · cases h
    · rename_i clear
      rintro (⟨e, he, here⟩ | ⟨blocked, stands⟩)
      · exact Board.enemyAt?_eq_none_iff.1 free e he here
      · exact clear (by simp [isBlocked, Board.isBlockedUnless, blocked, stands])

/-- What a shot over the ray comes to. -/
inductive RayShot (s : Session σ) (step : Position) : Session σ × Reply → Prop where
  /-- It strikes the first tile that stops it. -/
  | strikes {n : Nat} {outcome : Session σ × Reply} (nearest : s.Nearest step n)
      (strikes : s.Strikes (s.play.robot.position.along step n) outcome) : RayShot s step outcome
  /-- It gets to the end of its reach. -/
  | spent (clear : ∀ n, s.InRay step n → ¬ s.Stops (s.play.robot.position.along step n))
      (limited : 0 < s.play.robot.upgrades.attackRange)
      (inside : s.play.board.inBounds
        (s.play.robot.position.along step s.play.robot.upgrades.attackRange.toNat) = true) :
      RayShot s step (s, .laserNothing)
  /-- It goes off the board before. -/
  | edge (clear : ∀ n, s.InRay step n → ¬ s.Stops (s.play.robot.position.along step n))
      (outside : ¬ (0 < s.play.robot.upgrades.attackRange ∧ s.play.board.inBounds
        (s.play.robot.position.along step s.play.robot.upgrades.attackRange.toNat) = true)) :
      RayShot s step (s, .laserEdge)

/-- The ray is clear as far as the tile that lies so many steps ahead. -/
def ClearTo (s : Session σ) (step : Position) (travelled : Nat) : Prop :=
  ∀ n ≤ travelled, s.InRay step n → ¬ s.Stops (s.play.robot.position.along step n)

theorem ClearTo.succ {travelled : Nat} (clear : s.ClearTo step travelled)
    (misses : s.laserHit (s.play.robot.position.along step (travelled + 1)) = none) :
    s.ClearTo step (travelled + 1) := by
  intro n hn ray
  rcases Nat.le_succ_iff.1 hn with hn | rfl
  · exact clear n hn ray
  · exact not_stops_of_laserHit misses

/-- A laser that has come over clear tiles, and has not gone as far as it reaches, makes a shot. -/
theorem LaserFlight.rayShot {h : Heading} {travelled : Nat} {outcome : Session σ × Reply}
    (flight : LaserFlight s h.step travelled p outcome) (there : p = s.play.robot.position.along h.step travelled)
    (start : s.play.board.inBounds s.play.robot.position = true) (clear : s.ClearTo h.step travelled)
    (further : 0 < s.play.robot.upgrades.attackRange → (travelled : Int) < s.play.robot.upgrades.attackRange)
    (reach : 0 ≤ s.play.robot.upgrades.attackRange) : s.RayShot h.step outcome := by
  induction flight with
  | @edge travelled p outside =>
    rw [there, ← Position.along_succ] at outside
    -- the board ends here, so whatever lies on the ray has been passed
    have beyond : ∀ n, s.play.board.inBounds (s.play.robot.position.along h.step n) = true → n ≤ travelled := by
      intro n inside
      by_contra further
      have hnext := Board.inBounds_along start inside (m := travelled + 1) (by omega)
      rw [outside] at hnext
      cases hnext
    refine .edge (fun n ray => clear n (beyond n ray.inside) ray) ?_
    rintro ⟨limited, inside⟩
    have hreach := beyond _ inside
    have hleft := further limited
    omega
  | @hit travelled p outcome inside hits =>
    rw [there, ← Position.along_succ] at inside hits
    obtain ⟨stops, strikes⟩ := strikes_of_laserHit hits
    have ray : s.InRay h.step (travelled + 1) := ⟨by omega, inside, fun limited => by
      have hleft := further limited
      omega⟩
    exact .strikes ⟨ray, stops, fun n hn => clear n (Nat.le_of_lt_succ hn)⟩ strikes
  | @spent travelled p inside misses spent =>
    rw [there, ← Position.along_succ] at inside misses
    obtain ⟨nonzero, hspent⟩ := spent
    have limited : 0 < s.play.robot.upgrades.attackRange := by omega
    have hleft := further limited
    have hreach : s.play.robot.upgrades.attackRange.toNat = travelled + 1 := by omega
    refine .spent (fun n ray => clear.succ misses n ?_ ray) limited (hreach ▸ inside)
    have hn := ray.reached limited
    omega
  | @on travelled p outcome inside misses goes rest ih =>
    rw [there, ← Position.along_succ] at misses ih
    refine ih rfl (clear.succ misses) fun limited => ?_
    by_contra hspent
    exact goes ⟨limited.ne', not_lt.1 hspent⟩

/-- What comes of firing at a tile: what stops the laser there is struck, and otherwise nothing happens. -/
theorem fireTile_spec (s : Session σ) (p : Position) :
    (s.play.board.inBounds p = true → s.Stops p → s.Strikes p (s.fireTile p)) ∧
      (s.play.board.inBounds p = true → ¬ s.Stops p → s.fireTile p = (s, .laserEmpty p)) ∧
      (s.play.board.inBounds p = false → s.fireTile p = (s, .laserOutside)) := by
  unfold fireTile
  refine ⟨fun inside stops => ?_, fun inside clear => ?_, fun outside => ?_⟩
  · cases hits : s.laserHit p with
    | none => exact absurd stops (not_stops_of_laserHit hits)
    | some outcome =>
      simp only [inside, Bool.not_true, Bool.false_eq_true, if_false, Option.getD_some]
      exact (strikes_of_laserHit hits).2
  · cases hits : s.laserHit p with
    | none => simp only [inside, Bool.not_true, Bool.false_eq_true, if_false, Option.getD_none]
    | some outcome => exact absurd (strikes_of_laserHit hits).1 clear
  · simp only [outside, Bool.not_false, if_true]

/-- A laser does one thing, at the first tile with something on it. A robot on the board fires it in a direction: the
laser comes down somewhere, however far it flies. If something on its ray stops it, then it strikes the nearest such
tile. If the ray is clear nothing changes, and the answer is that there was nothing within reach exactly if there is a
limit to the reach and the last tile within it is on the board. A laser that is fired at a tile of the board strikes
that one tile, if something on it stops a laser; and otherwise, or beside the board, nothing changes. -/
theorem laser_strikes_nearest (inside : s.play.board.inBounds s.play.robot.position = true)
    (reach : 0 ≤ s.play.robot.upgrades.attackRange) (h : Heading) :
    (∀ outcome, LaserFlight s h.step 0 s.play.robot.position outcome ↔ outcome = s.fireDirection h.step) ∧
      ((∃ n, s.InRay h.step n ∧ s.Stops (s.play.robot.position.along h.step n)) →
        ∃ n, s.Nearest h.step n ∧ s.Strikes (s.play.robot.position.along h.step n) (s.fireDirection h.step)) ∧
      ((∀ n, s.InRay h.step n → ¬ s.Stops (s.play.robot.position.along h.step n)) →
        s.fireDirection h.step = (s,
          if 0 < s.play.robot.upgrades.attackRange ∧ s.play.board.inBounds
            (s.play.robot.position.along h.step s.play.robot.upgrades.attackRange.toNat) = true
          then .laserNothing else .laserEdge)) ∧
      ∀ p, (s.play.board.inBounds p = true → s.Stops p → s.Strikes p (s.fireTile p)) ∧
        (s.play.board.inBounds p = true → ¬ s.Stops p → s.fireTile p = (s, .laserEmpty p)) ∧
        (s.play.board.inBounds p = false → s.fireTile p = (s, .laserOutside)) := by
  have flight : LaserFlight s h.step 0 s.play.robot.position (s.fireDirection h.step) :=
    (laserFlight_iff inside h).2 rfl
  have hclear : s.ClearTo h.step 0 := by
    intro n hn ray
    have hahead := ray.ahead
    omega
  have hshot : s.RayShot h.step (s.fireDirection h.step) :=
    flight.rayShot Position.along_zero.symm inside hclear (fun limited => limited) reach
  refine ⟨fun outcome => laserFlight_iff inside h, ?_, ?_, s.fireTile_spec⟩
  · rintro ⟨n, ray, stops⟩
    generalize s.fireDirection h.step = outcome at hshot ⊢
    cases hshot with
    | strikes nearest strikes => exact ⟨_, nearest, strikes⟩
    | spent clear _ _ => exact absurd stops (clear n ray)
    | edge clear _ => exact absurd stops (clear n ray)
  · intro clear
    generalize s.fireDirection h.step = outcome at hshot ⊢
    cases hshot with
    | strikes nearest _ => exact absurd nearest.stops (clear _ nearest.ray)
    | spent _ limited within => rw [if_pos ⟨limited, within⟩]
    | edge _ outside => rw [if_neg outside]

/-- To the right of the robot in the courtyard nothing stops a laser before the enemy, which stands two tiles off. -/
theorem laser_strikes_nearest_courtyard :
    (∃ n, inCourtyard.Nearest Heading.right.step n ∧
        inCourtyard.Strikes (inCourtyard.play.robot.position.along Heading.right.step n)
          (inCourtyard.fireDirection Heading.right.step)) ∧
      (inCourtyard.fireDirection Heading.right.step).1.play.stunned.left? 0 = some 5 := by
  have inside : inCourtyard.play.board.inBounds inCourtyard.play.robot.position = true := by decide +kernel
  have reach : 0 ≤ inCourtyard.play.robot.upgrades.attackRange := by decide +kernel
  have ray : inCourtyard.InRay Heading.right.step 2 := ⟨by decide, by decide +kernel, by decide +kernel⟩
  have stops : inCourtyard.Stops (inCourtyard.play.robot.position.along Heading.right.step 2) :=
    .inl (by decide +kernel)
  obtain ⟨-, strikes, -⟩ := laser_strikes_nearest inside reach .right
  exact ⟨strikes ⟨2, ray, stops⟩, by decide +kernel⟩

end Session

end ScriptedRobot
