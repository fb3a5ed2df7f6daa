import Mathlib.Data.Nat.ModEq
import ScriptedRobot.Proofs.Strategy.Bounce
import ScriptedRobot.Proofs.Strategy.Chase
import ScriptedRobot.Proofs.Strategy.Guard
import ScriptedRobot.Random.Twister

/-!
# Circling enemies come to the border and go around it

A circling enemy on a board where nothing else is in its way goes right until it comes to the last column, and then
clockwise along the border of the board for ever. Its place on the border is counted in steps from the upper right
corner (`borderPlace`). It keeps to a side until that ends (`Rounding`): at a corner the way straight on leads off the
board, and it goes around the corner at the same turn. Only on the lower right corner, to which it has not come down
the last column, it needs one turn more, since there the way down is barred as well.
-/

namespace ScriptedRobot

variable {σ : Type} [WordSource σ]

/-- A circling strategy goes straight on if it can, else around the corner if it can; it has turned in either case. -/
theorem Strategy.ask_circular (quarter : Int) (turn : Enemy.Turn σ) (here : Position) :
    (circular quarter).ask turn here =
      if turn.board.isFree (here + clockwise quarter) then (some (here + clockwise quarter), circular quarter)
      else if turn.board.isFree (here + clockwise (nextTurn quarter)) then
        (some (here + clockwise (nextTurn quarter)), circular (nextTurn quarter))
      else (none, circular (nextTurn quarter)) := rfl

theorem Strategy.clockwise_zero : clockwise 0 = ⟨1, 0⟩ := rfl

theorem Strategy.clockwise_one : clockwise 1 = ⟨0, 1⟩ := rfl

theorem Strategy.clockwise_two : clockwise 2 = ⟨-1, 0⟩ := rfl

theorem Strategy.clockwise_three : clockwise 3 = ⟨0, -1⟩ := rfl

namespace Circular

open Strategy

/-- A board of so many columns and rows as an enemy on it finds it: there are no blockers, no closed doors and no other
enemies. -/
structure Bare (w h : Nat) (b : Board) (here : Position) : Prop where
  width : b.width = w
  height : b.height = h
  unblocked : ∀ p, b.isBlocked p = false
  alone : ∀ e ∈ b.enemies, e.position = here

variable {w h : Nat}

theorem Bare.isFree_eq {b : Board} {here p : Position} (bare : Bare w h b here) (other : p ≠ here) :
    b.isFree p = inside w h p := by
  have hoccupied : b.isOccupied p = false := by
    rw [Board.isOccupied_eq_false_iff]
    intro e he there
    exact other (there.symm.trans (bare.alone e he))
  rw [Board.isFree, Board.inBounds, bare.width, bare.height, bare.unblocked, hoccupied, Bool.not_false, Bool.and_true,
    Bool.and_true]

theorem ne_add_clockwise (p : Position) (quarter : Int) : p + clockwise quarter ≠ p := by
  obtain ⟨heading, hheading⟩ := Strategy.clockwise_heading quarter
  rw [hheading, Ne, Position.eq_iff]
  cases heading <;> simp [Heading.step]

/-! ## The border -/

/-- How many tiles the border of a board has. -/
def lap (w h : Nat) : Nat := 2 * (w + h) - 4

/-- The tile lies on the border of the board. -/
def OnBorder (w h : Nat) (p : Position) : Prop :=
  inside w h p = true ∧ (p.x = 0 ∨ p.x = w - 1 ∨ p.y = 0 ∨ p.y = h - 1)

/-- The tile so many steps clockwise along the border from the upper right corner, within a lap: down the last column,
left along the last row, up the first column and right along the first row. -/
def borderTile (w h k : Nat) : Position :=
  if k < h - 1 then ⟨w - 1, k⟩
  else if k < (h - 1) + (w - 1) then ⟨(h - 1) + (w - 1) - k, h - 1⟩
  else if k < 2 * (h - 1) + (w - 1) then ⟨0, 2 * (h - 1) + (w - 1) - k⟩
  else ⟨k - (2 * (h - 1) + (w - 1)), 0⟩

/-- The turn of the side that leads on from that tile. -/
def bearing (w h k : Nat) : Int :=
  if k < h - 1 then 1
  else if k < (h - 1) + (w - 1) then 2
  else if k < 2 * (h - 1) + (w - 1) then 3
  else 0

/-- The tile so many steps clockwise along the border, lap after lap. -/
def borderPlace (w h k : Nat) : Position := borderTile w h (k % lap w h)

theorem borderTile_onward (wide : 2 ≤ w) (high : 2 ≤ h) (k : Nat) :
    borderTile w h k + clockwise (bearing w h k) = borderTile w h (k + 1) := by
  rw [Position.eq_iff, Position.add_x, Position.add_y]
  unfold borderTile bearing
  split_ifs <;> simp only [clockwise_zero, clockwise_one, clockwise_two, clockwise_three] <;> omega

theorem borderTile_lap (wide : 2 ≤ w) (high : 2 ≤ h) : borderTile w h (lap w h) = borderTile w h 0 := by
  rw [lap, Position.eq_iff]
  unfold borderTile
  split_ifs <;> simp only <;> omega

/-- At the end of a side the way straight on leads off the board, and the next side is around the corner. -/
theorem bearing_onward (wide : 2 ≤ w) (high : 2 ≤ h) (k : Nat) :
    bearing w h (k + 1) = bearing w h k ∨
      bearing w h (k + 1) = nextTurn (bearing w h k) ∧
        inside w h (borderTile w h (k + 1) + clockwise (bearing w h k)) = false := by
  rw [← Bool.not_eq_true, inside_iff, Position.add_x, Position.add_y]
  unfold borderTile bearing
  split_ifs <;> simp only [clockwise_zero, clockwise_one, clockwise_two, clockwise_three, nextTurn, true_or] <;> omega

theorem borderTile_injective (wide : 2 ≤ w) (high : 2 ≤ h) {j k : Nat} (hj : j < lap w h) (hk : k < lap w h)
    (same : borderTile w h j = borderTile w h k) : j = k := by
  rw [lap] at hj hk
  unfold borderTile at same
  split_ifs at same <;> simp only [Position.mk.injEq, true_and, and_true] at same <;> omega

theorem borderTile_onBorder (wide : 2 ≤ w) (high : 2 ≤ h) {k : Nat} (within : k < lap w h) :
    OnBorder w h (borderTile w h k) := by
  rw [lap] at within
  rw [OnBorder, inside_iff]
  unfold borderTile
  split_ifs <;> simp only [true_or, or_true, and_true] <;> omega

theorem exists_borderTile (wide : 2 ≤ w) (high : 2 ≤ h) {p : Position} (border : OnBorder w h p) :
    ∃ k < lap w h, borderTile w h k = p := by
  obtain ⟨x, y⟩ := p
  obtain ⟨within, side⟩ := border
  rw [inside_iff] at within
  simp only at within side
  obtain ⟨x, rfl⟩ := Int.eq_ofNat_of_zero_le within.1.1
  obtain ⟨y, rfl⟩ := Int.eq_ofNat_of_zero_le within.2.1
  -- every corner belongs to the side that starts at it
  have hsides : (x = w - 1 ∧ y < h - 1) ∨ (y = h - 1 ∧ 0 < x) ∨ (x = 0 ∧ 0 < y) ∨ (y = 0 ∧ x < w - 1) := by omega
  unfold lap borderTile
  rcases hsides with right | lower | left | upper
  · refine ⟨y, by omega, ?_⟩
    split_ifs <;> simp only [Position.mk.injEq, and_true] <;> omega
  · refine ⟨(h - 1) + (w - 1) - x, by omega, ?_⟩
    split_ifs <;> simp only [Position.mk.injEq] <;> omega
  · refine ⟨2 * (h - 1) + (w - 1) - y, by omega, ?_⟩
    split_ifs <;> simp only [Position.mk.injEq] <;> omega
  · refine ⟨2 * (h - 1) + (w - 1) + x, by omega, ?_⟩
    split_ifs <;> simp only [Position.mk.injEq] <;> omega

/-! ### Lap after lap -/

theorem lap_pos (wide : 2 ≤ w) (high : 2 ≤ h) : 0 < lap w h := by
  rw [lap]
  omega

theorem borderPlace_onBorder (wide : 2 ≤ w) (high : 2 ≤ h) (k : Nat) : OnBorder w h (borderPlace w h k) :=
  borderTile_onBorder wide high (Nat.mod_lt k (lap_pos wide high))

theorem succ_mod_lap (wide : 2 ≤ w) (high : 2 ≤ h) (k : Nat) :
    (k + 1) % lap w h = k % lap w h + 1 ∨ ((k + 1) % lap w h = 0 ∧ k % lap w h + 1 = lap w h) := by
  have hwithin := Nat.mod_lt k (lap_pos wide high)
  rw [← Nat.mod_add_mod]
  by_cases last : k % lap w h + 1 = lap w h
  · refine .inr ⟨?_, last⟩
    rw [last, Nat.mod_self]
  · exact .inl (Nat.mod_eq_of_lt (by omega))

/-- The turn of the side that leads on from that place. -/
def placeBearing (w h k : Nat) : Int := bearing w h (k % lap w h)

/-- A step along the border leads to the next place, also at the end of a lap. -/
theorem borderPlace_onward (wide : 2 ≤ w) (high : 2 ≤ h) (k : Nat) :
    borderPlace w h k + clockwise (placeBearing w h k) = borderPlace w h (k + 1) := by
  rw [borderPlace, placeBearing, borderTile_onward wide high, borderPlace]
  rcases succ_mod_lap wide high k with hnext | ⟨hnext, last⟩
  · rw [hnext]
  · rw [hnext, last, borderTile_lap wide high]

/-- At the end of a side the way straight on leads off the board, and the next side is around the corner. -/
theorem placeBearing_onward (wide : 2 ≤ w) (high : 2 ≤ h) (k : Nat) :
    placeBearing w h (k + 1) = placeBearing w h k ∨
      placeBearing w h (k + 1) = nextTurn (placeBearing w h k) ∧
        inside w h (borderPlace w h (k + 1) + clockwise (placeBearing w h k)) = false := by
  unfold placeBearing borderPlace
  rcases succ_mod_lap wide high k with hnext | ⟨hnext, last⟩
  · rw [hnext]
    exact bearing_onward wide high _
  · rw [hnext]
    have hupper : bearing w h (k % lap w h) = 0 := by
      rw [lap] at last ⊢
      unfold bearing
      split_ifs <;> omega
    refine .inr ⟨?_, ?_⟩
    · rw [hupper, bearing, if_pos (by omega)]
      rfl
    · rw [hupper, clockwise_zero, borderTile, if_pos (by omega), ← Bool.not_eq_true, inside_iff, Position.add_x]
      simp only
      omega

/-! ## Going around -/

/-- An enemy goes around the border: it is at a place of it, and looks along the side that leads on, or off the board
where it has to turn to look along that side. -/
structure Rounding (w h k : Nat) (e : Enemy) : Prop where
  stands : e.position = borderPlace w h k
  looks : ∃ quarter, e.strategy = .circular quarter ∧
    (placeBearing w h k = quarter ∨
      placeBearing w h k = nextTurn quarter ∧ inside w h (borderPlace w h k + clockwise quarter) = false)

/-- At each turn it steps, and comes to the next place. -/
theorem Rounding.tick {k : Nat} {e : Enemy} (wide : 2 ≤ w) (high : 2 ≤ h) (rounds : Rounding w h k e)
    {turn : Enemy.Turn σ} (bare : Bare w h turn.board e.position) :
    e.target turn = some (borderPlace w h (k + 1)) ∧ Rounding w h (k + 1) (e.tick turn) := by
  obtain ⟨stands, quarter, circles, looks⟩ := rounds
  have honward := borderPlace_onward wide high k
  have hfree : ∀ quarter, turn.board.isFree (borderPlace w h k + clockwise quarter) =
      inside w h (borderPlace w h k + clockwise quarter) :=
    fun quarter => (stands ▸ bare).isFree_eq (ne_add_clockwise _ quarter)
  have hnext : inside w h (borderPlace w h (k + 1)) = true := (borderPlace_onBorder wide high (k + 1)).1
  have hask : e.strategy.ask turn e.position = (some (borderPlace w h (k + 1)), .circular (placeBearing w h k)) := by
    rw [circles, stands, ask_circular, hfree, hfree]
    rcases looks with straight | ⟨corner, off⟩
    · rw [← straight, honward, if_pos hnext]
    · rw [off, ← corner, honward, if_neg Bool.false_ne_true, if_pos hnext]
  obtain ⟨htarget, hposition, hstrategy⟩ := Enemy.tick_of_ask hask
  exact ⟨htarget, hposition, placeBearing w h k, hstrategy, placeBearing_onward wide high k⟩

/-! ## Coming to the border -/

/-- How many turns an enemy that starts there needs to come to the last column, and to turn on the lower right
corner. -/
def arrival (w h x y : Nat) : Nat := w - 1 - x + if y = h - 1 then 1 else 0

theorem arrival_above {w h x y : Nat} (above : y ≠ h - 1) : arrival w h x y = w - 1 - x := by
  rw [arrival, if_neg above, Nat.add_zero]

theorem arrival_last {w h x y : Nat} (last : y = h - 1) : arrival w h x y = w - 1 - x + 1 := by
  rw [arrival, if_pos last]

/-- What an enemy has come to after some turns: it goes right still, or has come to the border and goes around it. -/
inductive Course (w h x y t : Nat) (e : Enemy) : Prop
  | approaching (early : t < arrival w h x y) (stands : e.position = ⟨x + t, y⟩) (circles : e.strategy = .circular 0)
  | rounding (late : arrival w h x y ≤ t) (rounds : Rounding w h (y + (t - arrival w h x y)) e)

variable {x y t : Nat} {e : Enemy}

/-- The first places are those in the last column, from top to bottom. -/
theorem borderPlace_column (wide : 2 ≤ w) (high : 2 ≤ h) (row : y < h) :
    borderPlace w h y = ⟨w - 1, y⟩ ∧ placeBearing w h y = if y = h - 1 then 2 else 1 := by
  have hlap : y < lap w h := by
    rw [lap]
    omega
  rw [borderPlace, placeBearing, Nat.mod_eq_of_lt hlap]
  unfold borderTile bearing
  split_ifs <;> simp only [Position.mk.injEq, true_and, and_true] <;> omega

/-- Whoever looks right in the last column, above the last row, goes around the border. -/
theorem rounding_column (wide : 2 ≤ w) (high : 2 ≤ h) (row : y < h - 1) (stands : e.position = ⟨w - 1, y⟩)
    (circles : e.strategy = .circular 0) : Rounding w h y e := by
  obtain ⟨hplace, hbearing⟩ := borderPlace_column wide high (y := y) (by omega)
  rw [if_neg (by omega)] at hbearing
  refine ⟨stands.trans hplace.symm, 0, circles, .inr ⟨hbearing, ?_⟩⟩
  rw [hplace, clockwise_zero, ← Bool.not_eq_true, inside_iff, Position.add_x]
  simp only
  omega

/-- Whoever looks down on the lower right corner goes around the border. -/
theorem rounding_corner (wide : 2 ≤ w) (high : 2 ≤ h) (row : y = h - 1) (stands : e.position = ⟨w - 1, y⟩)
    (circles : e.strategy = .circular 1) : Rounding w h y e := by
  obtain ⟨hplace, hbearing⟩ := borderPlace_column wide high (y := y) (by omega)
  rw [if_pos row] at hbearing
  refine ⟨stands.trans hplace.symm, 1, circles, .inr ⟨hbearing, ?_⟩⟩
  rw [hplace, clockwise_one, ← Bool.not_eq_true, inside_iff, Position.add_y]
  simp only
  omega

/-- Going right takes an enemy as far as the last column, and to the border unless that is in the last row. -/
theorem Course.of_right (wide : 2 ≤ w) (high : 2 ≤ h) (column : x < w) (row : y < h) (early : t ≤ w - 1 - x)
    (stands : e.position = ⟨x + t, y⟩) (circles : e.strategy = .circular 0) : Course w h x y t e := by
  by_cases before : t < arrival w h x y
  · exact .approaching before stands circles
  · have above : y ≠ h - 1 := by
      intro last
      rw [arrival_last last] at before
      omega
    have harrival : arrival w h x y = t := by
      rw [arrival_above above] at before ⊢
      omega
    have hcolumn : (x + t : Int) = w - 1 := by
      rw [arrival_above above] at harrival
      omega
    refine .rounding (Nat.le_of_eq harrival) ?_
    rw [harrival, Nat.sub_self]
    exact rounding_column wide high (by omega) (hcolumn ▸ stands) circles

/-- At each turn an enemy goes on in its course. It stays only if it has come to the lower right corner by going right,
since then it cannot go on down either. -/
theorem Course.tick (wide : 2 ≤ w) (high : 2 ≤ h) (column : x < w) (row : y < h) (course : Course w h x y t e)
    {turn : Enemy.Turn σ} (bare : Bare w h turn.board e.position) :
    (e.target turn = none ↔ t = w - 1 - x ∧ y = h - 1) ∧ Course w h x y (t + 1) (e.tick turn) := by
  cases course with
  | approaching early stands circles =>
    have hfree : ∀ quarter, turn.board.isFree (e.position + clockwise quarter) =
        inside w h (e.position + clockwise quarter) := fun quarter => bare.isFree_eq (ne_add_clockwise _ quarter)
    have hnext : e.position + clockwise 0 = ⟨x + (t + 1 : Nat), y⟩ := by
      rw [stands, clockwise_zero, Position.eq_iff]
      exact ⟨Int.add_assoc _ _ _, Int.add_zero _⟩
    by_cases far : t < w - 1 - x
    · have hinside : inside w h ⟨x + (t + 1 : Nat), y⟩ = true := by
        rw [inside_iff]
        simp only
        omega
      have hask : e.strategy.ask turn e.position = (some ⟨x + (t + 1 : Nat), y⟩, .circular 0) := by
        rw [circles, ask_circular, hfree, hnext, if_pos hinside]
      obtain ⟨htarget, hposition, hstrategy⟩ := Enemy.tick_of_ask hask
      refine ⟨⟨fun stays => ?_, fun ⟨there, _⟩ => absurd there (Nat.ne_of_lt far)⟩,
        .of_right wide high column row far hposition hstrategy⟩
      rw [htarget] at stays
      cases stays
    · obtain ⟨late, last⟩ : t = w - 1 - x ∧ y = h - 1 := by
        by_cases last : y = h - 1
        · rw [arrival_last last] at early
          omega
        · rw [arrival_above last] at early
          omega
      have hcorner : e.position = ⟨w - 1, y⟩ := by
        rw [stands, Position.eq_iff]
        refine ⟨?_, rfl⟩
        simp only
        omega
      have hoff : inside w h (e.position + clockwise 0) = false ∧ inside w h (e.position + clockwise 1) = false := by
        rw [hcorner, clockwise_zero, clockwise_one, ← Bool.not_eq_true, ← Bool.not_eq_true, inside_iff, inside_iff,
          Position.add_x, Position.add_x, Position.add_y, Position.add_y]
        simp only
        omega
      have hask : e.strategy.ask turn e.position = (none, .circular 1) := by
        have hturned : nextTurn 0 = 1 := rfl
        rw [circles, ask_circular, hturned, hfree, hfree, hoff.1, hoff.2]
        rfl
      obtain ⟨htarget, hposition, hstrategy⟩ := Enemy.tick_of_ask hask
      have hstays : (e.tick turn).position = e.position := hposition
      have harrival : arrival w h x y = t + 1 := by
        rw [arrival_last last, late]
      refine ⟨⟨fun _ => ⟨late, last⟩, fun _ => htarget⟩, .rounding (Nat.le_of_eq harrival) ?_⟩
      rw [harrival, Nat.sub_self]
      exact rounding_corner wide high last (hstays.trans hcorner) hstrategy
  | rounding late rounds =>
    obtain ⟨htarget, hrounds⟩ := rounds.tick wide high bare
    refine ⟨⟨fun stays => ?_, fun ⟨there, last⟩ => ?_⟩, .rounding (Nat.le_succ_of_le late) ?_⟩
    · rw [htarget] at stays
      cases stays
    · rw [arrival_last last] at late
      omega
    · have hnext : y + (t - arrival w h x y) + 1 = y + (t + 1 - arrival w h x y) := by omega
      exact hnext ▸ hrounds

/-! ## The patrol -/

theorem existsUnique_phase {period k : Nat} (within : k < period) (t s : Nat) :
    ∃! j, (s ≤ j ∧ j < s + period) ∧ (t + j) % period = k := by
  obtain ⟨j, hj, hphase⟩ := Bounce.exists_phase within (t + s)
  refine ⟨s + j, ⟨by omega, by rw [← Nat.add_assoc, hphase]⟩, ?_⟩
  rintro i ⟨⟨low, high⟩, hphase'⟩
  obtain ⟨i, rfl⟩ := Nat.exists_eq_add_of_le low
  have hsame : t + s + i ≡ t + s + j [MOD period] := by rw [Nat.ModEq, hphase, Nat.add_assoc, hphase']
  rw [(Nat.ModEq.add_left_cancel' _ hsame).eq_of_lt_of_lt (by omega) hj]

/-- A circling enemy ends up patrolling the border clockwise. Let it start on any tile, with nothing else in its way on a
board of at least two columns and two rows, and without having turned yet. It goes right as far as the last column; it
stays at one turn if it comes there in the last row, and at no other; and from its arrival on it goes along the
border clockwise, one tile at each turn. So within any lap it comes to each tile of the border once, and to no other. -/
theorem patrols_border (wide : 2 ≤ w) (high : 2 ≤ h) (column : x < w) (row : y < h) {positive : Bool}
    (fresh : e.strategy = StrategyKind.circular.start positive) (stands : e.position = ⟨x, y⟩)
    {turns : List (Enemy.Turn σ)}
    (bare : ∀ t turn, turns[t]? = some turn → Bare w h turn.board (e.patrol (turns.take t)).position) :
    (∀ t ≤ turns.length, t ≤ w - 1 - x → (e.patrol (turns.take t)).position = ⟨x + t, y⟩) ∧
      (∀ t turn, turns[t]? = some turn →
        ((e.patrol (turns.take t)).target turn = none ↔ t = w - 1 - x ∧ y = h - 1)) ∧
      (∀ t, arrival w h x y + t ≤ turns.length →
        (e.patrol (turns.take (arrival w h x y + t))).position = borderPlace w h (y + t)) ∧
      ∀ s, arrival w h x y + s + lap w h ≤ turns.length + 1 → ∀ p, OnBorder w h p ↔
        ∃! t, (s ≤ t ∧ t < s + lap w h) ∧ (e.patrol (turns.take (arrival w h x y + t))).position = p := by
  have hstart : Course w h x y 0 e := .of_right wide high column row (Nat.zero_le _) (by simpa using stands) fresh
  have hcourse := Enemy.patrol_counts (Q := Course w h x y) hstart fun t turn hturn h =>
    (h.tick wide high column row (bare t turn hturn)).2
  have hplace : ∀ t, arrival w h x y + t ≤ turns.length →
      (e.patrol (turns.take (arrival w h x y + t))).position = borderPlace w h (y + t) := by
    intro t ht
    rcases hcourse _ ht with ⟨early⟩ | ⟨-, rounds⟩
    · omega
    · rw [rounds.stands, Nat.add_sub_cancel_left]
  refine ⟨fun t ht early => ?_, fun t turn hturn => ?_, hplace, fun s hs p => ⟨fun border => ?_, fun visited => ?_⟩⟩
  · rcases hcourse t ht with ⟨-, right⟩ | ⟨late, rounds⟩
    · exact right
    · have above : y ≠ h - 1 := by
        intro last
        rw [arrival_last last] at late
        omega
      have hcolumn : (x + t : Int) = w - 1 := by
        rw [arrival_above above] at late
        omega
      have harrival : t - arrival w h x y = 0 := by
        rw [arrival_above above]
        omega
      rw [rounds.stands, harrival, Nat.add_zero, (borderPlace_column wide high row).1, hcolumn]
  · obtain ⟨ht, -⟩ := List.getElem?_eq_some_iff.1 hturn
    exact ((hcourse t (Nat.le_of_lt ht)).tick wide high column row (bare t turn hturn)).1
  · obtain ⟨k, hk, htile⟩ := exists_borderTile wide high border
    obtain ⟨t, ⟨hwindow, hphase⟩, honly⟩ := existsUnique_phase hk y s
    have hthere : borderPlace w h (y + t) = p := by rw [borderPlace, hphase, htile]
    refine ⟨t, ⟨hwindow, (hplace t (by omega)).trans hthere⟩, ?_⟩
    rintro u ⟨huwindow, huthere⟩
    rw [hplace u (by omega), ← htile] at huthere
    exact honly u ⟨huwindow, borderTile_injective wide high (Nat.mod_lt _ (lap_pos wide high)) hk huthere⟩
  · obtain ⟨t, ⟨⟨-, soon⟩, there⟩, -⟩ := visited
    rw [← there, hplace t (by omega)]
    exact borderPlace_onBorder wide high _

/-- An enemy in the last row of a court. -/
def warder : Enemy := ⟨⟨1, 1⟩, .vertical, false, some "circular", .circular 0⟩

/-- A court of three by two tiles, with an open door in a corner and the warder on one of its tiles. -/
def court (here : Position) : Enemy.Turn Random.Twister where
  board :=
    { width := 3, height := 2, doors := .ofList [⟨0, 0⟩], openDoors := .ofList [⟨0, 0⟩]
      enemies := [{ warder with position := here }] }
  player := some ⟨1, 0⟩
  words := ⟨Vector.replicate _ 0, 0⟩

theorem court_bare (here : Position) : Bare 3 2 (court here).board here where
  width := rfl
  height := rfl
  unblocked p := by simp [Board.isBlocked, court]
  alone e he := by rw [List.mem_singleton.1 he]

/-- Where the warder stands at its turns: it comes to the lower right corner at once and stays there at one turn. -/
def beat : List Position := [⟨1, 1⟩, ⟨2, 1⟩, ⟨2, 1⟩, ⟨1, 1⟩, ⟨0, 1⟩, ⟨0, 0⟩, ⟨1, 0⟩]

/-- After its stay the warder goes around the court, and comes through the door once in six turns. -/
theorem patrols_border_court :
    (warder.patrol ((beat.map court).take 1)).target (court ⟨2, 1⟩) = none ∧
      (warder.patrol ((beat.map court).take 6)).position = borderPlace 3 2 (1 + 4) ∧
      ∃! t, (0 ≤ t ∧ t < 0 + 6) ∧ (warder.patrol ((beat.map court).take (2 + t))).position = ⟨0, 0⟩ := by
  have hstands : ∀ t < 7, beat[t]? = some (warder.patrol ((beat.map court).take t)).position := by decide +kernel
  have hbare : ∀ t turn, (beat.map court)[t]? = some turn →
      Bare 3 2 turn.board (warder.patrol ((beat.map court).take t)).position := by
    intro t turn hturn
    obtain ⟨ht, -⟩ := List.getElem?_eq_some_iff.1 hturn
    rw [List.getElem?_map, hstands t ht] at hturn
    cases hturn
    exact court_bare _
  have hfresh : warder.strategy = StrategyKind.circular.start true := rfl
  obtain ⟨-, hstays, hplace, hvisits⟩ := patrols_border (w := 3) (h := 2) (x := 1) (y := 1) (by decide) (by decide)
    (by decide) (by decide) hfresh rfl hbare
  have hdoor : OnBorder 3 2 ⟨0, 0⟩ := ⟨rfl, .inl rfl⟩
  exact ⟨(hstays 1 _ rfl).2 (by decide), hplace 4 (by decide), (hvisits 0 (by decide) ⟨0, 0⟩).1 hdoor⟩

end Circular

end ScriptedRobot
