import ScriptedRobot.Proofs.Board.Patrolling
import ScriptedRobot.Random.Twister

/-!
# Spirals wind outwards

A square spiral is made of legs: the first two are one tile long, the next two are two tiles long, and so on, and
each leg turns clockwise from the one before. A strategy that winds takes just these steps one after the other,
however often it has to wait in between (`OnLeg`). It keeps away from what it has passed, which lies in a box around
its start, so it comes to no tile twice (`Passed`).
-/

namespace ScriptedRobot

variable {σ : Type} [WordSource σ]

/-! ## The steps that a strategy takes -/

namespace Strategy

/-- The step that a strategy takes when it is asked at a tile, if it takes one. -/
def stride? (s : Strategy) (asked : Position × Enemy.Turn σ) : Option Position :=
  (s.ask asked.2 asked.1).1.map fun p => ⟨p.x - asked.1.x, p.y - asked.1.y⟩

/-- The steps that a strategy takes when it is asked again and again, whatever the tiles. -/
def strides : Strategy → List (Position × Enemy.Turn σ) → List Position
  | _, [] => []
  | s, asked :: more => (s.stride? asked).toList ++ strides (s.ask asked.2 asked.1).2 more

theorem stride?_of_ask {s s' : Strategy} {asked : Position × Enemy.Turn σ} {step : Position}
    (h : s.ask asked.2 asked.1 = (some (asked.1 + step), s')) : s.stride? asked = some step := by
  have hback : ∀ a b : Int, a + b - a = b := fun a b => by omega
  rw [stride?, h]
  simp only [Option.map_some, Position.add_x, Position.add_y, hback]

theorem clockwise_emod (quarter : Int) : clockwise (quarter % 4) = clockwise quarter := by
  rw [clockwise, clockwise, Int.emod_emod]

/-- A spiral goes straight on if it can, and turns at the end of a leg. -/
theorem ask_spiral (quarter leg walked : Int) (turn : Enemy.Turn σ) (here : Position) :
    (spiral quarter leg walked).ask turn here =
      if turn.board.isFree (here + clockwise quarter) then
        (some (here + clockwise quarter),
          if walked + 1 ≥ leg then
            spiral (nextTurn quarter) (if nextTurn quarter % 2 = 0 then leg + 1 else leg) 0
          else spiral quarter leg (walked + 1))
      else (none, spiral quarter leg walked) := by
  show spiralNext turn.board.isFree quarter leg walked here = _
  unfold spiralNext
  by_cases free : turn.board.isFree (here + clockwise quarter) = true
  · by_cases last : walked + 1 ≥ leg <;> simp [free, last]
  · simp [free]

end Strategy

namespace Spiral

open Strategy

/-! ## Legs -/

/-- A leg of a square spiral, as steps. Legs are counted from one; half its number, rounded up, is the length of a
leg. -/
def leg (k : Nat) : List Position := List.replicate ((k + 1) / 2) (clockwise (k - 1))

/-- The first legs of a square spiral. -/
def legs (n : Nat) : List Position := (List.range' 1 n).flatMap leg

/-- A strategy winds in its leg `k`, of which it has gone `w` tiles. -/
structure OnLeg (k w : Nat) (s : Strategy) : Prop where
  counted : 1 ≤ k
  within : w < (k + 1) / 2
  winds : s = .spiral ((k - 1) % 4) ((k + 1) / 2 : Nat) w

theorem onLeg_fresh : OnLeg 1 0 (.spiral 0 1 0) := ⟨Nat.le_refl 1, by decide, rfl⟩

variable {k w : Nat} {s : Strategy}

/-- A strategy that winds waits, or takes the next step of its leg; at the end of a leg the next one begins. -/
theorem OnLeg.ask (h : OnLeg k w s) (turn : Enemy.Turn σ) (here : Position) :
    s.ask turn here = (none, s) ∨
      ∃ s', s.ask turn here = (some (here + clockwise (k - 1)), s') ∧
        ((w + 1 < (k + 1) / 2 ∧ OnLeg k (w + 1) s') ∨ (w + 1 = (k + 1) / 2 ∧ OnLeg (k + 1) 0 s')) := by
  obtain ⟨counted, within, rfl⟩ := h
  rw [ask_spiral, clockwise_emod]
  split
  · refine .inr ⟨_, rfl, ?_⟩
    by_cases last : w + 1 = (k + 1) / 2
    · have hleg : (w : Int) + 1 ≥ ((k + 1) / 2 : Nat) := by omega
      have hturn : nextTurn (((k : Int) - 1) % 4) = ((k + 1 : Nat) - 1 : Int) % 4 := by
        unfold nextTurn
        omega
      refine .inr ⟨last, Nat.succ_pos k, by omega, ?_⟩
      rw [if_pos hleg, hturn]
      -- a leg is longer than the one before it exactly if that one goes up or down
      by_cases longer : ((k + 1 : Nat) - 1 : Int) % 4 % 2 = 0
      · have hlength : (((k + 1) / 2 : Nat) : Int) + 1 = ((k + 1 + 1) / 2 : Nat) := by omega
        rw [if_pos longer, hlength]
        rfl
      · have hlength : (k + 1) / 2 = (k + 1 + 1) / 2 := by omega
        rw [if_neg longer, hlength]
        rfl
    · have hleg : ¬ (w : Int) + 1 ≥ ((k + 1) / 2 : Nat) := by omega
      have more : w + 1 < (k + 1) / 2 := by omega
      refine .inl ⟨more, counted, more, ?_⟩
      rw [if_neg hleg]
      rfl
  · exact .inl rfl

/-- What has been gone of a leg, followed by the steps that are taken from there on, is how the legs from this one on
begin. -/
theorem OnLeg.strides (h : OnLeg k w s) (asked : List (Position × Enemy.Turn σ)) :
    ∃ n, List.replicate w (clockwise (k - 1)) ++ s.strides asked <+: (List.range' k n).flatMap leg := by
  induction asked generalizing k w s with
  | nil =>
    refine ⟨1, List.replicate ((k + 1) / 2 - w) (clockwise (k - 1)), ?_⟩
    have hlength : w + ((k + 1) / 2 - w) = (k + 1) / 2 := Nat.add_sub_of_le (Nat.le_of_lt h.within)
    simp [Strategy.strides, leg, hlength]
  | cons asked more ih =>
    rw [Strategy.strides]
    rcases h.ask asked.2 asked.1 with hask | ⟨s', hask, hnext⟩
    · rw [stride?, hask]
      exact ih h
    · have hgone : List.replicate w (clockwise (k - 1)) ++ clockwise (k - 1) :: s'.strides more =
          List.replicate (w + 1) (clockwise (k - 1)) ++ s'.strides more := by
        rw [List.replicate_succ', List.append_assoc, List.singleton_append]
      rw [stride?_of_ask hask, hask, Option.toList_some, List.singleton_append, hgone]
      rcases hnext with ⟨-, hs'⟩ | ⟨last, hs'⟩
      · exact ih hs'
      · obtain ⟨n, hn⟩ := ih hs'
        refine ⟨n + 1, ?_⟩
        rw [List.range'_succ, List.flatMap_cons, leg, ← last]
        exact List.prefix_append_right_inj _ |>.2 hn

/-! ## What has been passed -/

theorem clockwise_succ (quarter : Int) : clockwise (quarter + 1) = ⟨-(clockwise quarter).y, (clockwise quarter).x⟩ := by
  have hquarters : quarter % 4 = 0 ∨ quarter % 4 = 1 ∨ quarter % 4 = 2 ∨ quarter % 4 = 3 := by omega
  rw [← clockwise_emod (quarter + 1), ← clockwise_emod quarter, ← Int.emod_add_emod]
  rcases hquarters with h | h | h | h <;> rw [h] <;> rfl

/-- A tile as it is seen by somebody who looks along leg `k`, and for whom that is to the right. -/
def seen : Nat → Position → Position
  | 0, p => ⟨-p.y, p.x⟩
  | k + 1, p => ⟨(seen k p).y, -(seen k p).x⟩

theorem seen_add (k : Nat) (a b : Position) : seen k (a + b) = seen k a + seen k b := by
  induction k with
  | zero => exact congrArg₂ Position.mk Int.neg_add rfl
  | succ k ih =>
    rw [seen, ih]
    exact congrArg₂ Position.mk rfl Int.neg_add

theorem seen_turned (k : Nat) (d : Position) : seen k ⟨-d.y, d.x⟩ = ⟨-(seen k d).y, (seen k d).x⟩ := by
  induction k with
  | zero => rfl
  | succ k ih =>
    rw [seen, ih, seen]
    exact congrArg₂ Position.mk (Int.neg_neg _).symm (Int.neg_neg _)

theorem seen_clockwise (k : Nat) : seen k (clockwise (k - 1)) = ⟨1, 0⟩ := by
  induction k with
  | zero => rfl
  | succ k ih =>
    have hquarter : ((k + 1 : Nat) : Int) - 1 = k - 1 + 1 := by omega
    rw [hquarter, clockwise_succ, seen, seen_turned, ih]
    rfl

theorem seen_next (k : Nat) (here : Position) :
    seen k (here + clockwise (k - 1)) = ⟨(seen k here).x + 1, (seen k here).y⟩ := by
  rw [seen_add, seen_clockwise]
  exact congrArg (Position.mk _) (Int.add_zero _)

/-- What a spiral from `start` may have passed when it has gone `w` tiles of its leg `k` and stands here. All is seen
along this leg: what has been passed lies in a box around the start, of which the leg goes along the upper side, and
on that side nothing lies ahead. -/
structure Passed (start : Position) (k w : Nat) (here p : Position) : Prop where
  counted : 1 ≤ k
  column : (seen k here).x = (seen k start).x - ((k + 1) / 4 : Nat) + w
  row : (seen k here).y = (seen k start).y - ((k + 2) / 4 : Nat)
  columns : (seen k start).x - ((k + 1) / 4 : Nat) ≤ (seen k p).x ∧
    (seen k p).x ≤ (seen k start).x + ((k - 1) / 4 : Nat)
  rows : (seen k start).y - ((k + 2) / 4 : Nat) ≤ (seen k p).y ∧ (seen k p).y ≤ (seen k start).y + (k / 4 : Nat)
  behind : (seen k p).y = (seen k here).y → (seen k p).x ≤ (seen k here).x

namespace Passed

variable {start here p : Position}

theorem self (h : Passed start k w here p) (within : w < (k + 1) / 2) : Passed start k w here here := by
  obtain ⟨counted, column, row, -, -, -⟩ := h
  refine ⟨counted, column, row, ?_, ?_, fun _ => Int.le_refl _⟩
  · rw [column]
    omega
  · rw [row]
    omega

theorem ne_next (h : Passed start k w here p) : p ≠ here + clockwise (k - 1) := by
  intro there
  have hnext := seen_next k here
  rw [← there] at hnext
  have hahead := h.behind (by rw [hnext])
  rw [hnext] at hahead
  exact absurd hahead (Int.not_le.2 (Int.lt_succ _))

/-- It goes on along the same side. -/
theorem goes_on (h : Passed start k w here p) : Passed start k (w + 1) (here + clockwise (k - 1)) p := by
  obtain ⟨counted, column, row, columns, rows, behind⟩ := h
  refine ⟨counted, ?_, ?_, columns, rows, ?_⟩
  all_goals rw [seen_next]
  · rw [column, Int.add_assoc]
    rfl
  · exact row
  · exact fun level => Int.le_add_one (behind level)

/-- It turns the corner one tile outside the box, and has all of the box to its right then. -/
theorem turns (h : Passed start k w here p) (last : w + 1 = (k + 1) / 2) :
    Passed start (k + 1) 0 (here + clockwise (k - 1)) p := by
  obtain ⟨counted, column, row, columns, rows, -⟩ := h
  have hcorner : (seen k here).x + 1 = (seen k start).x + ((k + 3) / 4 : Nat) := by
    rw [column]
    omega
  have hoff : (k - 1) / 4 + 1 = (k + 3) / 4 := by omega
  refine ⟨Nat.succ_pos k, ?_, ?_, rows, ⟨?_, ?_⟩, ?_⟩
  all_goals simp only [seen, seen_next]
  · rw [row]
    exact (Int.add_zero _).symm
  all_goals omega

end Passed

/-- An enemy that winds goes on over tiles that it has not passed yet. -/
theorem OnLeg.nodup_trail {e : Enemy} {start : Position} {passed : List Position} (h : OnLeg k w e.strategy)
    (all : ∀ p ∈ passed, Passed start k w e.position p) (here : e.position ∈ passed) (once : passed.Nodup)
    (turns : List (Enemy.Turn σ)) : (passed ++ e.trail turns).Nodup := by
  induction turns generalizing k w e passed with
  | nil => simpa [Enemy.trail] using once
  | cons turn turns ih =>
    rw [Enemy.trail]
    rcases h.ask turn e.position with hask | ⟨s', hask, hnext⟩
    · obtain ⟨htarget, hposition, hstrategy⟩ := Enemy.tick_of_ask hask
      rw [htarget]
      have hstays : (e.tick turn).position = e.position := hposition
      rw [← hstays] at all here
      exact ih (hstrategy ▸ h) all here once
    · obtain ⟨htarget, hposition, hstrategy⟩ := Enemy.tick_of_ask hask
      have hgoes : (e.tick turn).position = e.position + clockwise (k - 1) := hposition
      have hfresh : e.position + clockwise (k - 1) ∉ passed := fun hmem => (all _ hmem).ne_next rfl
      have honce : (passed ++ [e.position + clockwise (k - 1)]).Nodup :=
        List.nodup_append.2 ⟨once, List.nodup_singleton _, by
          rintro p hp q hq rfl
          exact hfresh (List.mem_singleton.1 hq ▸ hp)⟩
      rw [htarget, Option.toList_some, ← List.append_assoc]
      -- every tile passed before is passed still, and so is the one that the enemy comes to
      have hall : ∀ {k' w' : Nat}, w' < (k' + 1) / 2 →
          (∀ p ∈ passed, Passed start k' w' (e.position + clockwise (k - 1)) p) →
          ∀ p ∈ passed ++ [e.position + clockwise (k - 1)], Passed start k' w' (e.tick turn).position p := by
        intro k' w' within old p hp
        rw [hgoes]
        rcases List.mem_append.1 hp with hp | hp
        · exact old p hp
        · rw [List.mem_singleton.1 hp]
          exact (old e.position here).self within
      have hthere : (e.tick turn).position ∈ passed ++ [e.position + clockwise (k - 1)] := by
        rw [hgoes]
        exact List.mem_append_right _ (List.mem_singleton_self _)
      rcases hnext with ⟨-, hs'⟩ | ⟨last, hs'⟩
      · have hleg : OnLeg k (w + 1) (e.tick turn).strategy := hstrategy ▸ hs'
        exact ih hleg (hall hs'.within fun p hp => (all p hp).goes_on) hthere honce
      · have hleg : OnLeg (k + 1) 0 (e.tick turn).strategy := hstrategy ▸ hs'
        exact ih hleg (hall hs'.within fun p hp => (all p hp).turns last) hthere honce

/-- A fresh spiral is a square one. Asked any number of times, on whatever boards and tiles, it takes the steps of the
legs one after the other as far as it gets. It waits where the next tile is not free, and then remembers just what it
did before. So an enemy that only moves by it steps neither onto a tile twice nor back onto its first one. -/
theorem winds_outwards :
    (∀ asked : List (Position × Enemy.Turn σ), ∃ n, (Strategy.spiral 0 1 0).strides asked <+: legs n) ∧
      (∀ (quarter leg walked : Int) (turn : Enemy.Turn σ) (here : Position),
        ((Strategy.spiral quarter leg walked).ask turn here).1 = none →
          turn.board.isFree (here + clockwise quarter) = false ∧
            ((Strategy.spiral quarter leg walked).ask turn here).2 = .spiral quarter leg walked) ∧
      ∀ (e : Enemy) (turns : List (Enemy.Turn σ)), e.strategy = .spiral 0 1 0 →
        (e.position :: e.trail turns).Nodup := by
  refine ⟨fun asked => onLeg_fresh.strides asked, ?_, ?_⟩
  · intro quarter leg walked turn here waits
    rw [ask_spiral] at waits ⊢
    split at waits
    · cases waits
    · rename_i barred
      exact ⟨Bool.eq_false_iff.2 barred, if_neg barred ▸ rfl⟩
  · intro e turns fresh
    have hleg : OnLeg 1 0 e.strategy := fresh ▸ onLeg_fresh
    have hstart : ∀ p ∈ [e.position], Passed e.position 1 0 e.position p := by
      intro p hp
      rw [List.mem_singleton.1 hp]
      exact ⟨Nat.le_refl 1, by simp, by simp, by simp, by simp, fun _ => Int.le_refl _⟩
    exact hleg.nodup_trail hstart (List.mem_singleton_self _) (List.nodup_singleton _) turns

/-- An enemy that winds in the middle of a meadow of three by three tiles. -/
def snail : Enemy := ⟨⟨1, 1⟩, .horizontal, true, some "spiral", .spiral 0 1 0⟩

def onMeadow : Enemy.Turn Random.Twister := ⟨{ width := 3, height := 3 }, none, ⟨Vector.replicate _ 0, 0⟩⟩

/-- In ten turns the snail comes to every other tile of the meadow, and waits at its edge then. -/
theorem winds_outwards_meadow :
    snail.strategy = .spiral 0 1 0 ∧ (snail.trail (List.replicate 10 onMeadow)).length = 8 ∧
      (snail.position :: snail.trail (List.replicate 10 onMeadow)).Nodup := by
  obtain ⟨-, -, once⟩ := winds_outwards (σ := Random.Twister)
  exact ⟨rfl, by decide +kernel, once snail _ rfl⟩

end Spiral

end ScriptedRobot
