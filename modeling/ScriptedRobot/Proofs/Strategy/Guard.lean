import ScriptedRobot.Proofs.Board.Patrolling

/-!
# Guards keep to their posts

The tile where a guard is asked for the first time becomes its post. It steps onto a tile only if that is near enough
to the post, and turns otherwise, so whatever it finds at its turns it does not leave the surroundings of its post.
-/

namespace ScriptedRobot

variable {σ : Type} [WordSource σ]

theorem Strategy.clockwise_heading (quarter : Int) : ∃ h : Heading, clockwise quarter = h.step := by
  unfold clockwise
  split
  · exact ⟨.right, rfl⟩
  · split
    · exact ⟨.down, rfl⟩
    · split
      · exact ⟨.left, rfl⟩
      · exact ⟨.up, rfl⟩

theorem Position.distance_self (p : Position) : p.distance p = 0 := by
  unfold distance
  omega

namespace Guard

open Strategy

/-- What a guard remembers of its post when it stands here: nothing, if it has not left it, or where it is. -/
inductive Recalls (post here : Position) : Option Int → Option Int → Prop where
  /-- No post has been recorded, and the guard stands on it. -/
  | unset (there : here = post) : Recalls post here none none
  /-- The post has been recorded. -/
  | recorded : Recalls post here (some post.x) (some post.y)

/-- A guard steps only onto tiles near its post, and has recorded its post from its first turn on. -/
theorem Recalls.ask {post here : Position} {x y : Option Int} (h : Recalls post here x y) (quarter : Int)
    (turn : Enemy.Turn σ) :
    (guard quarter x y).ask turn here =
      if (here + clockwise quarter).distance post ≤ guardRadius ∧ turn.board.isFree (here + clockwise quarter) then
        (some (here + clockwise quarter), guard quarter (some post.x) (some post.y))
      else (none, guard (nextTurn quarter) (some post.x) (some post.y)) := by
  cases h with
  | unset there =>
    rw [there]
    rfl
  | recorded => rfl

/-- The enemy guards a post: it is near it, and remembers no other. -/
structure Keeps (post : Position) (e : Enemy) : Prop where
  /-- It is at most three orthogonal steps away. -/
  near : e.position.distance post ≤ 3
  /-- What it has recorded is its post, if it has recorded any. -/
  recalls : ∃ quarter x y, e.strategy = .guard quarter x y ∧ Recalls post e.position x y

variable {e : Enemy}

theorem keeps_fresh {positive : Bool} (h : e.strategy = StrategyKind.guard.start positive) : Keeps e.position e where
  near := by
    rw [Position.distance_self]
    exact Nat.zero_le 3
  recalls := ⟨0, none, none, h, .unset rfl⟩

variable {post : Position}

/-- At its turn a guard takes one orthogonal step at most, and keeps its post. -/
theorem Keeps.tick (h : Keeps post e) (turn : Enemy.Turn σ) :
    Keeps post (e.tick turn) ∧
      ((e.tick turn).position = e.position ∨
        ∃ heading : Heading, (e.tick turn).position = e.position + heading.step) := by
  obtain ⟨near, quarter, x, y, guards, recalls⟩ := h
  have hask := recalls.ask quarter turn
  rw [← guards] at hask
  split at hask
  · -- it goes: the distance that counts is the one of the tile that it goes to
    rename_i goes
    obtain ⟨-, hposition, hstrategy⟩ := Enemy.tick_of_ask hask
    obtain ⟨heading, hheading⟩ := clockwise_heading quarter
    have hstep : (e.tick turn).position = e.position + clockwise quarter := hposition
    refine ⟨⟨?_, quarter, _, _, hstrategy, .recorded⟩, .inr ⟨heading, ?_⟩⟩
    · rw [hstep]
      exact goes.1
    · rw [hstep, hheading]
  · -- it turns where it stands, and the post is recorded all the same
    obtain ⟨-, hposition, hstrategy⟩ := Enemy.tick_of_ask hask
    have hstays : (e.tick turn).position = e.position := hposition
    refine ⟨⟨?_, nextTurn quarter, _, _, hstrategy, .recorded⟩, .inl hstays⟩
    rw [hstays]
    exact near

theorem Keeps.patrol (h : Keeps post e) (turns : List (Enemy.Turn σ)) : Keeps post (e.patrol turns) :=
  Enemy.patrol_keeps h (fun _ turn kept => (kept.tick turn).1) turns

end Guard

end ScriptedRobot
