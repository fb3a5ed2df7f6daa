import Mathlib.Algebra.Ring.Int.Defs
import Mathlib.Tactic.Ring
import ScriptedRobot.Proofs.Board.Patrolling
import ScriptedRobot.Random.Twister

/-!
# Bouncing enemies patrol their corridor

An enemy that bounces between the two ends of a corridor swings like a pendulum: its place is a triangle wave
(`triangleWave`), of which it is always in some phase (`Swinging`). At an end it turns and steps back at the same turn,
so it never stands still, and within a period it comes to every tile.
-/

namespace ScriptedRobot

variable {σ : Type} [WordSource σ]

/-- A bouncing strategy steps forth if it can, else back. -/
theorem Strategy.ask_bounce (axis : Position) (positive : Bool) (turn : Enemy.Turn σ) (here : Position) :
    (bounce axis positive).ask turn here =
      if turn.board.isFree (here + along axis positive) then (some (here + along axis positive), bounce axis positive)
      else if turn.board.isFree (here + along axis !positive) then
        (some (here + along axis !positive), bounce axis !positive)
      else (none, bounce axis !positive) := rfl

namespace Bounce

open Strategy

/-! ## Corridors -/

/-- The tile of a corridor that lies so many steps behind its first one. -/
def tile (first axis : Position) (k : Int) : Position := ⟨first.x + k * axis.x, first.y + k * axis.y⟩

/-- The sense in which an enemy walks, as a number. -/
def sense (positive : Bool) : Int := if positive then 1 else -1

/-- A corridor as an enemy in it finds it: so many tiles from the first one on are free, other than the one that the
enemy stands on, and the tile before them is not, nor is the one behind them. -/
structure Corridor (first axis : Position) (n : Nat) (b : Board) (here : Position) : Prop where
  free : ∀ k < n, tile first axis (k : Nat) ≠ here → b.isFree (tile first axis (k : Nat)) = true
  before : b.isFree (tile first axis (-1)) = false
  behind : b.isFree (tile first axis n) = false

variable {first axis : Position} {n : Nat}

theorem tile_along (k : Int) (positive : Bool) :
    tile first axis k + along axis positive = tile first axis (k + sense positive) := by
  cases positive with
  | true =>
    have hnext : ∀ a d : Int, a + k * d + d = a + (k + 1) * d := fun a d => by ring
    exact congrArg₂ Position.mk (hnext first.x axis.x) (hnext first.y axis.y)
  | false =>
    have hprevious : ∀ a d : Int, a + k * d + -d = a + (k + -1) * d := fun a d => by ring
    exact congrArg₂ Position.mk (hprevious first.x axis.x) (hprevious first.y axis.y)

theorem tile_injective (straight : axis ≠ ⟨0, 0⟩) {j k : Int} (h : tile first axis j = tile first axis k) : j = k := by
  obtain ⟨hx, hy⟩ := Position.mk.inj h
  have hx : j * axis.x = k * axis.x := Int.add_left_cancel hx
  have hy : j * axis.y = k * axis.y := Int.add_left_cancel hy
  by_cases flat : axis.x = 0
  · have steep : axis.y ≠ 0 := fun level => straight (congrArg₂ Position.mk flat level)
    exact Int.eq_of_mul_eq_mul_right steep hy
  · exact Int.eq_of_mul_eq_mul_right flat hx

/-- What is free around a place in a corridor are its other tiles. -/
theorem Corridor.isFree_iff {b : Board} {j k : Int} (h : Corridor first axis n b (tile first axis k))
    (straight : axis ≠ ⟨0, 0⟩) (low : -1 ≤ j) (high : j ≤ n) (other : j ≠ k) :
    b.isFree (tile first axis j) = true ↔ 0 ≤ j ∧ j < n := by
  constructor
  · intro free
    have hbefore : j ≠ -1 := by
      rintro rfl
      rw [h.before] at free
      cases free
    have hbehind : j ≠ n := by
      rintro rfl
      rw [h.behind] at free
      cases free
    omega
  · rintro ⟨low, high⟩
    obtain ⟨j, rfl⟩ := Int.eq_ofNat_of_zero_le low
    exact h.free j (by omega) fun same => other (tile_injective straight same)

/-- In a corridor a bouncing strategy steps forth unless that is the end, and else back unless that is the other
end. -/
theorem Corridor.ask {turn : Enemy.Turn σ} {k : Int} (h : Corridor first axis n turn.board (tile first axis k))
    (straight : axis ≠ ⟨0, 0⟩) (low : 0 ≤ k) (high : k < n) (positive : Bool) :
    (bounce axis positive).ask turn (tile first axis k) =
      if 0 ≤ k + sense positive ∧ k + sense positive < n then
        (some (tile first axis (k + sense positive)), bounce axis positive)
      else if 0 ≤ k + sense (!positive) ∧ k + sense (!positive) < n then
        (some (tile first axis (k + sense !positive)), bounce axis !positive)
      else (none, bounce axis !positive) := by
  have hfree : ∀ positive, turn.board.isFree (tile first axis (k + sense positive)) = true ↔
      0 ≤ k + sense positive ∧ k + sense positive < n := by
    intro positive
    apply h.isFree_iff straight <;> cases positive <;> simp only [sense] <;> omega
  rw [ask_bounce, tile_along, tile_along]
  simp only [hfree]

/-! ## Swinging -/

/-- A triangle wave: it rises from zero to `n - 1`, falls to zero again, and so on. -/
def triangleWave (n t : Nat) : Nat := min (t % (2 * (n - 1))) (2 * (n - 1) - t % (2 * (n - 1)))

/-- The phase of an enemy at a place in its corridor: it goes forth while the wave rises and back while it falls. -/
def phase (n k : Nat) (positive : Bool) : Nat := if positive then k else 2 * (n - 1) - k

/-- At some time an enemy is in the phase that the wave is in then. -/
def Swinging (first axis : Position) (n t : Nat) (e : Enemy) : Prop :=
  ∃ (k : Nat) (positive : Bool), k < n ∧ e.position = tile first axis k ∧ e.strategy = .bounce axis positive ∧
    t % (2 * (n - 1)) = phase n k positive % (2 * (n - 1))

theorem triangleWave_of_phase {k t : Nat} {positive : Bool} (long : 2 ≤ n) (within : k < n)
    (phased : t % (2 * (n - 1)) = phase n k positive % (2 * (n - 1))) : triangleWave n t = k := by
  rw [triangleWave, phased]
  generalize hhalf : n - 1 = half
  cases positive with
  | true =>
    have hphase : phase n k true = k := rfl
    rw [hphase, Nat.mod_eq_of_lt (by omega)]
    omega
  | false =>
    have hphase : phase n k false = 2 * half - k := hhalf ▸ rfl
    rw [hphase]
    cases k with
    | zero =>
      rw [Nat.sub_zero, Nat.mod_self]
      exact Nat.zero_min _
    | succ k =>
      rw [Nat.mod_eq_of_lt (by omega)]
      omega

/-- Every phase comes up within a period. -/
theorem exists_phase {period k : Nat} (h : k < period) (t : Nat) : ∃ j < period, (t + j) % period = k := by
  have hdivide := Nat.div_add_mod t period
  have hrest := Nat.mod_lt t (Nat.zero_lt_of_lt h)
  by_cases ahead : t % period ≤ k
  · refine ⟨k - t % period, by omega, ?_⟩
    have hsum : t + (k - t % period) = period * (t / period) + k := by omega
    rw [hsum, Nat.mul_add_mod, Nat.mod_eq_of_lt h]
  · refine ⟨period + k - t % period, by omega, ?_⟩
    have hsum : t + (period + k - t % period) = period * (t / period) + (period + k) := by omega
    rw [hsum, Nat.mul_add_mod, Nat.add_mod_left, Nat.mod_eq_of_lt h]

/-- At each turn a swinging enemy steps, and comes into the next phase. -/
theorem Swinging.tick {t : Nat} {e : Enemy} (h : Swinging first axis n t e) (long : 2 ≤ n) (straight : axis ≠ ⟨0, 0⟩)
    {turn : Enemy.Turn σ} (corridor : Corridor first axis n turn.board e.position) :
    (e.target turn).isSome = true ∧ Swinging first axis n (t + 1) (e.tick turn) := by
  obtain ⟨k, positive, within, stands, bounces, phased⟩ := h
  rw [stands] at corridor
  have hlow : (0 : Int) ≤ k := Int.natCast_nonneg k
  have hhigh : (k : Int) < n := Int.ofNat_lt.2 within
  have hask := corridor.ask straight hlow hhigh positive
  have hnext : (t + 1) % (2 * (n - 1)) = (phase n k positive + 1) % (2 * (n - 1)) := by
    rw [Nat.add_mod, phased, ← Nat.add_mod]
  -- wherever it steps, it is in the next phase there
  have steps : ∀ (l : Nat) {onward : Bool} {j : Int},
      (bounce axis positive).ask turn (tile first axis k) = (some (tile first axis j), bounce axis onward) → j = l →
      l < n → (phase n k positive + 1) % (2 * (n - 1)) = phase n l onward % (2 * (n - 1)) →
      (e.target turn).isSome = true ∧ Swinging first axis n (t + 1) (e.tick turn) := by
    rintro l onward _ hgoes rfl inside hphase
    rw [← bounces, ← stands] at hgoes
    obtain ⟨htarget, hposition, hstrategy⟩ := Enemy.tick_of_ask hgoes
    exact ⟨by rw [htarget]; rfl, l, onward, inside, hposition, hstrategy, hnext.trans hphase⟩
  clear phased hnext corridor
  cases positive with
  | true =>
    simp only [Bool.not_true, sense, if_true, Bool.false_eq_true, if_false] at hask
    by_cases last : k + 1 = n
    · rw [if_neg (by omega), if_pos (by omega)] at hask
      have hturn : phase n k true + 1 = phase n (k - 1) false := by
        simp only [phase, if_true, Bool.false_eq_true, if_false]
        omega
      exact steps (k - 1) hask (by omega) (by omega) (congrArg (· % _) hturn)
    · rw [if_pos (by omega)] at hask
      exact steps (k + 1) hask rfl (by omega) rfl
  | false =>
    simp only [Bool.not_false, sense, if_true, Bool.false_eq_true, if_false] at hask
    cases k with
    | zero =>
      rw [if_neg (by omega), if_pos (by omega)] at hask
      exact steps 1 hask rfl long (Nat.add_mod_left _ 1)
    | succ k =>
      rw [if_pos (by omega)] at hask
      have hgoes : phase n (k + 1) false + 1 = phase n k false := by
        simp only [phase, Bool.false_eq_true, if_false]
        omega
      exact steps k hask (by omega) (by omega) (congrArg (· % _) hgoes)

/-- An enemy in a corridor of a single tile. -/
def Stuck (first axis : Position) (e : Enemy) : Prop :=
  e.position = tile first axis 0 ∧ ∃ positive, e.strategy = .bounce axis positive

theorem Stuck.tick {e : Enemy} (h : Stuck first axis e) (straight : axis ≠ ⟨0, 0⟩) {turn : Enemy.Turn σ}
    (corridor : Corridor first axis 1 turn.board e.position) :
    e.target turn = none ∧ Stuck first axis (e.tick turn) := by
  obtain ⟨stands, positive, bounces⟩ := h
  rw [stands] at corridor
  have hask : e.strategy.ask turn e.position = (none, .bounce axis !positive) := by
    rw [bounces, stands, corridor.ask straight (Int.le_refl 0) Int.one_pos]
    cases positive <;> rfl
  obtain ⟨htarget, hposition, hstrategy⟩ := Enemy.tick_of_ask hask
  have hstays : (e.tick turn).position = e.position := hposition
  exact ⟨htarget, hstays.trans stands, !positive, hstrategy⟩

/-- A bouncing enemy patrols its whole corridor, whatever its axis. Let it start on some tile of the corridor, in
either sense, and let the corridor be one at all of its turns. If there is more than one tile, it steps at every turn;
its place after any number of turns is that on a triangle wave, which passes the place where it started in the
sense in which it started; and it comes to every tile within any period of the wave. On a single tile it never moves. -/
theorem patrols_corridor (straight : axis ≠ ⟨0, 0⟩) {i : Nat} (within : i < n) {e : Enemy} {positive : Bool}
    (bounces : e.strategy = .bounce axis positive) (stands : e.position = tile first axis i)
    {turns : List (Enemy.Turn σ)}
    (corridor : ∀ t turn, turns[t]? = some turn →
      Corridor first axis n turn.board (e.patrol (turns.take t)).position) :
    (2 ≤ n →
      (∀ t turn, turns[t]? = some turn → ((e.patrol (turns.take t)).target turn).isSome = true) ∧
        (∀ t ≤ turns.length,
          (e.patrol (turns.take t)).position = tile first axis (triangleWave n (phase n i positive + t))) ∧
        ∀ s, s + 2 * (n - 1) ≤ turns.length → ∀ k < n, ∃ t, s < t ∧ t ≤ s + 2 * (n - 1) ∧
          (e.patrol (turns.take t)).position = tile first axis k) ∧
      (n = 1 → ∀ t turn, turns[t]? = some turn → (e.patrol (turns.take t)).target turn = none) := by
  refine ⟨fun long => ?_, ?_⟩
  · have hstart : Swinging first axis n (phase n i positive + 0) e := ⟨i, positive, within, stands, bounces, rfl⟩
    have hswinging := Enemy.patrol_counts (Q := fun t => Swinging first axis n (phase n i positive + t)) hstart
      fun t turn hturn h => (h.tick long straight (corridor t turn hturn)).2
    have hplace : ∀ t ≤ turns.length,
        (e.patrol (turns.take t)).position = tile first axis (triangleWave n (phase n i positive + t)) := by
      intro t ht
      obtain ⟨k, _, hk, hstands, -, phased⟩ := hswinging t ht
      rw [triangleWave_of_phase long hk phased, hstands]
    refine ⟨fun t turn hturn => ?_, hplace, fun s hs k hk => ?_⟩
    · obtain ⟨ht, -⟩ := List.getElem?_eq_some_iff.1 hturn
      exact ((hswinging t (Nat.le_of_lt ht)).tick long straight (corridor t turn hturn)).1
    · -- on its way up the wave is at `k` in phase `k`, and this phase comes up within a period
      have hearly : k < 2 * (n - 1) := by omega
      obtain ⟨j, hj, hphase⟩ := exists_phase hearly (phase n i positive + (s + 1))
      refine ⟨s + 1 + j, by omega, by omega, ?_⟩
      have hwave : triangleWave n (phase n i positive + (s + 1 + j)) = k := by
        rw [triangleWave, ← Nat.add_assoc, hphase]
        omega
      rw [hplace _ (by omega), hwave]
  · rintro rfl t turn hturn
    obtain ⟨ht, -⟩ := List.getElem?_eq_some_iff.1 hturn
    have hfirst : e.position = tile first axis 0 := by rw [stands, Nat.lt_one_iff.1 within]; rfl
    have hstuck : ∀ t ≤ turns.length, Stuck first axis (e.patrol (turns.take t)) :=
      Enemy.patrol_counts (Q := fun _ => Stuck first axis) ⟨hfirst, positive, bounces⟩
        fun t turn hturn h => (h.tick straight (corridor t turn hturn)).2
    exact ((hstuck t (Nat.le_of_lt ht)).tick straight (corridor t turn hturn)).1

/-- An enemy in the middle of a yard, with the upper left corner behind it. -/
def sentry : Enemy := ⟨⟨1, 1⟩, .vertical, false, some "diagonal", .bounce ⟨1, 1⟩ false⟩

/-- A yard of three by three tiles with the sentry on one of them. -/
def yard (here : Position) : Enemy.Turn Random.Twister where
  board := { width := 3, height := 3, enemies := [{ sentry with position := here }] }
  player := none
  words := ⟨Vector.replicate _ 0, 0⟩

def rounds : List Position := [⟨1, 1⟩, ⟨0, 0⟩, ⟨1, 1⟩, ⟨2, 2⟩, ⟨1, 1⟩]

/-- The sentry patrols the diagonal of the yard: it comes to its lower right corner within four turns. -/
theorem patrols_corridor_yard :
    (sentry.patrol ((rounds.map yard).take 3)).position = tile ⟨0, 0⟩ ⟨1, 1⟩ (triangleWave 3 (3 + 3)) ∧
      ∃ t, 1 < t ∧ t ≤ 5 ∧ (sentry.patrol ((rounds.map yard).take t)).position = tile ⟨0, 0⟩ ⟨1, 1⟩ 2 := by
  have hstands : ∀ t < 5, rounds[t]? = some (sentry.patrol ((rounds.map yard).take t)).position := by decide +kernel
  have hfree : ∀ here ∈ rounds, ∀ k < 3, tile ⟨0, 0⟩ ⟨1, 1⟩ (k : Nat) ≠ here →
      (yard here).board.isFree (tile ⟨0, 0⟩ ⟨1, 1⟩ (k : Nat)) = true := by decide +kernel
  have hcorridor : ∀ t turn, (rounds.map yard)[t]? = some turn →
      Corridor ⟨0, 0⟩ ⟨1, 1⟩ 3 turn.board (sentry.patrol ((rounds.map yard).take t)).position := by
    intro t turn hturn
    obtain ⟨ht, -⟩ := List.getElem?_eq_some_iff.1 hturn
    rw [List.getElem?_map, hstands t ht] at hturn
    cases hturn
    exact ⟨hfree _ (List.mem_of_getElem? (hstands t ht)), rfl, rfl⟩
  obtain ⟨hpatrols, -⟩ := patrols_corridor (by decide) (i := 1) (by decide) rfl rfl hcorridor
  obtain ⟨-, hplace, hvisits⟩ := hpatrols (by decide)
  exact ⟨hplace 3 (by decide), hvisits 1 (by decide) 2 (by decide)⟩

end Bounce

end ScriptedRobot
