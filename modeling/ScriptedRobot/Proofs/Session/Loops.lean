import ScriptedRobot.Proofs.Session.Search

/-!
# Lasers and searches come to an end

`LaserFlight` lets a laser fly on from tile to tile for as long as nothing stops it, with no bound on how often.
`laserFlight_iff` says that it always comes down somewhere, and that firing answers with just that. A search
gets on by steps of which there are never infinitely many (`searchStep_wellFounded`).
-/

namespace ScriptedRobot.Session

variable {σ : Type}

/-! ## Lasers -/

/-- Has a laser gone as far as it reaches? A laser without a limit never has. -/
def LaserSpent (s : Session σ) (travelled : Nat) : Prop :=
  s.play.robot.upgrades.attackRange ≠ 0 ∧ s.play.robot.upgrades.attackRange ≤ travelled

/-- What a laser comes to that has travelled over so many tiles and is now on this one. -/
inductive LaserFlight (s : Session σ) (step : Position) : Nat → Position → Session σ × Reply → Prop where
  /-- It goes off the board. -/
  | edge {travelled : Nat} {p : Position} (outside : s.play.board.inBounds (p + step) = false) :
      LaserFlight s step travelled p (s, .laserEdge)
  /-- It hits something on the next tile. -/
  | hit {travelled : Nat} {p : Position} {outcome : Session σ × Reply}
      (inside : s.play.board.inBounds (p + step) = true) (hits : s.laserHit (p + step) = some outcome) :
      LaserFlight s step travelled p outcome
  /-- The next tile is the last one that it reaches. -/
  | spent {travelled : Nat} {p : Position} (inside : s.play.board.inBounds (p + step) = true)
      (misses : s.laserHit (p + step) = none) (spent : s.LaserSpent (travelled + 1)) :
      LaserFlight s step travelled p (s, .laserNothing)
  /-- It flies on over the next tile. -/
  | on {travelled : Nat} {p : Position} {outcome : Session σ × Reply}
      (inside : s.play.board.inBounds (p + step) = true) (misses : s.laserHit (p + step) = none)
      (further : ¬ s.LaserSpent (travelled + 1)) (rest : LaserFlight s step (travelled + 1) (p + step) outcome) :
      LaserFlight s step travelled p outcome

theorem LaserFlight.unique {s : Session σ} {step : Position} {travelled : Nat} {p : Position}
    {a b : Session σ × Reply} (h : LaserFlight s step travelled p a) (k : LaserFlight s step travelled p b) :
    a = b := by
  induction h with
  | edge outside => cases k <;> simp_all
  | hit inside hits => cases k <;> simp_all
  | spent inside misses spent => cases k <;> simp_all
  | on inside misses further _ ih =>
    cases k with
    | on _ _ _ rest => exact ih rest
    | _ => simp_all

/-- How many tiles lie ahead on the board. -/
def tilesAhead (s : Session σ) (p : Position) : Heading → Nat
  | .up => p.y.toNat
  | .down => (s.play.board.height - 1 - p.y).toNat
  | .left => p.x.toNat
  | .right => (s.play.board.width - 1 - p.x).toNat

theorem tilesAhead_lt {s : Session σ} {p : Position} {h : Heading}
    (inside : s.play.board.inBounds (p + h.step) = true) : s.tilesAhead (p + h.step) h < s.tilesAhead p h := by
  rw [Board.inBounds, inside_iff] at inside
  cases h <;> simp only [tilesAhead, Heading.step, Position.add_x, Position.add_y] at inside ⊢ <;> omega

/-- The number of tiles that a laser may still cross never decides anything: it is what the reach leaves, and
without a limit it is more than lie ahead. -/
theorem laserFrom_flight {s : Session σ} {h : Heading} {count travelled : Nat} {p : Position}
    (unlimited : s.play.robot.upgrades.attackRange = 0 → s.tilesAhead p h < count)
    (limited : s.play.robot.upgrades.attackRange ≠ 0 →
      0 < count ∧ count + travelled = max 1 s.play.robot.upgrades.attackRange.toNat) :
    LaserFlight s h.step travelled p (s.laserFrom h.step count p) := by
  induction count generalizing travelled p with
  | zero =>
    by_cases hreach : s.play.robot.upgrades.attackRange = 0
    · exact absurd (unlimited hreach) (Nat.not_lt_zero _)
    · exact absurd (limited hreach).1 (Nat.not_lt_zero 0)
  | succ count ih =>
    simp only [laserFrom]
    by_cases inside : s.play.board.inBounds (p + h.step) = true
    · rw [if_neg (by simp [inside])]
      cases hits : s.laserHit (p + h.step) with
      | some outcome => exact .hit inside hits
      | none =>
        by_cases spent : s.LaserSpent (travelled + 1)
        · obtain ⟨hreach, hle⟩ := spent
          obtain ⟨-, hcount⟩ := limited hreach
          have hlast : count = 0 := by omega
          rw [hlast]
          exact .spent inside hits ⟨hreach, hle⟩
        · refine .on inside hits spent (ih ?_ ?_)
          · intro hreach
            have hahead := tilesAhead_lt inside
            have hcount := unlimited hreach
            omega
          · intro hreach
            obtain ⟨-, hcount⟩ := limited hreach
            have hfurther : ¬ s.play.robot.upgrades.attackRange ≤ (travelled + 1 : Nat) := fun hle =>
              spent ⟨hreach, hle⟩
            omega
    · rw [if_pos (by simpa using inside)]
      exact .edge (by simpa using inside)

/-- A laser that is fired comes to one end, and firing answers with it. -/
theorem laserFlight_iff {s : Session σ} (hrobot : s.play.board.inBounds s.play.robot.position = true) (h : Heading)
    {outcome : Session σ × Reply} :
    LaserFlight s h.step 0 s.play.robot.position outcome ↔ outcome = s.fireDirection h.step := by
  have hfires : LaserFlight s h.step 0 s.play.robot.position (s.fireDirection h.step) := by
    rw [Board.inBounds, inside_iff] at hrobot
    refine laserFrom_flight ?_ ?_
    · intro hreach
      rw [laserLength, if_pos hreach]
      cases h <;> simp only [tilesAhead] <;> omega
    · intro hreach
      rw [laserLength, if_neg hreach]
      omega
  constructor
  · intro hflight
    exact hflight.unique hfires
  · rintro rfl
    exact hfires

/-! ## Searches -/

/-- How many steps a search has left at most. -/
def SearchPhase.rank : SearchPhase → Nat
  | homing .up left => left + sweepLimit + 2
  | homing _ left => left + sweepLimit + 1
  | sweeping _ left => left

variable [WordSource σ]

theorem SearchStep.rank_lt {c d : SearchPhase × Session σ} (h : SearchStep c d) : d.1.rank < c.1.rank := by
  cases h with
  | go goes _ =>
    cases goes with
    | @home h _ _ _ _ => cases h <;> simp only [SearchPhase.rank] <;> omega
    | sweep _ _ => exact Nat.lt_succ_self _
  | turn _ => exact Nat.lt_succ_self _
  | corner _ =>
    simp only [SearchPhase.rank]
    omega

/-- No search gets on forever. -/
theorem searchStep_wellFounded : WellFounded fun d c : SearchPhase × Session σ => SearchStep c d :=
  Subrelation.wf (fun h => h.rank_lt) (measure fun c : SearchPhase × Session σ => c.1.rank).wf

end ScriptedRobot.Session
