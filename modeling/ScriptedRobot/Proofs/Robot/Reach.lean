import Mathlib.Tactic.Ring
import ScriptedRobot.Proofs.Board.Tiles

/-!
# What the robot reaches and what it sees

The grabber takes in the tiles of the board that are no more orthogonal steps away than its reach, each of them once
and row by row; the scanner sees the tiles ahead as far as they are on the board, and no more of them than its range
(`reach_exact`).
-/

namespace ScriptedRobot

namespace Position

/-- The tile so many steps on. -/
def along (p step : Position) (n : Nat) : Position := ⟨p.x + n * step.x, p.y + n * step.y⟩

/-- The next so many tiles, without the first. -/
def onwards (p step : Position) (n : Nat) : List Position := (List.range n).map fun k => p.along step (k + 1)

/-- The order in which a board is read: row by row, and each row from left to right. -/
def ReadBefore (p q : Position) : Prop := p.y < q.y ∨ p.y = q.y ∧ p.x < q.x

variable {p q step : Position}

@[simp] theorem along_zero : p.along step 0 = p := by simp [along]

theorem along_succ (n : Nat) : p.along step (n + 1) = p.along step n + step := by
  have hx : p.x + (n + 1 : Nat) * step.x = p.x + n * step.x + step.x := by push_cast; ring
  have hy : p.y + (n + 1 : Nat) * step.y = p.y + n * step.y + step.y := by push_cast; ring
  exact congrArg₂ Position.mk hx hy

/-- The same tile, counted from the next one. -/
theorem along_add_step (n : Nat) : (p + step).along step n = p.along step (n + 1) := by
  induction n with
  | zero => rw [along_zero, along_succ, along_zero]
  | succ n ih => rw [along_succ, ih, along_succ (n + 1)]

theorem onwards_succ (n : Nat) : p.onwards step (n + 1) = (p + step) :: (p + step).onwards step n := by
  have hfirst : p.along step (0 + 1) = p + step := by rw [along_succ, along_zero]
  rw [onwards, List.range_succ_eq_map, List.map_cons, List.map_map, hfirst]
  exact congrArg _ (List.map_congr_left fun k _ => (along_add_step (k + 1)).symm)

theorem ReadBefore.ne (h : p.ReadBefore q) : p ≠ q := by
  rintro rfl
  unfold ReadBefore at h
  omega

end Position

theorem pairwise_integers (low high : Int) : (integers low high).Pairwise (· < ·) := by
  unfold integers
  exact List.pairwise_lt_range.map _ fun a b h => by omega

/-- The tiles ahead are listed as long as they pass the test, and no more than so many: a piece of the way onwards is
listed as a whole exactly if it is no longer than that and all its tiles pass. -/
theorem ahead_spec (test : Position → Bool) (step : Position) (count : Nat) (p : Position) :
    ∃ n, ahead test step count p = p.onwards step n ∧
      ∀ m, m ≤ n ↔ m ≤ count ∧ ∀ q ∈ p.onwards step m, test q = true := by
  induction count generalizing p with
  | zero =>
    refine ⟨0, rfl, fun m => ⟨fun hm => ⟨hm, ?_⟩, And.left⟩⟩
    rw [Nat.le_zero.1 hm]
    exact fun q hq => absurd hq List.not_mem_nil
  | succ count ih =>
    by_cases passes : test (p + step) = true
    · obtain ⟨n, hlist, hlongest⟩ := ih (p + step)
      refine ⟨n + 1, ?_, fun m => ?_⟩
      · rw [ahead, if_pos passes, hlist, Position.onwards_succ]
      · cases m with
        | zero => simp [Position.onwards]
        | succ m =>
          rw [Nat.add_le_add_iff_right, Nat.add_le_add_iff_right, hlongest, Position.onwards_succ,
            List.forall_mem_cons, and_iff_right passes]
    · refine ⟨0, if_neg passes, fun m => ?_⟩
      cases m with
      | zero => simp [Position.onwards]
      | succ m =>
        -- the first tile already fails
        rw [Position.onwards_succ, List.forall_mem_cons]
        simp [passes]

namespace Robot

theorem mem_grabberTiles {r : Robot} {width height : Int} {p : Position} : p ∈ r.grabberTiles width height ↔
    inside width height p = true ∧ (r.position.distance p : Int) ≤ r.grabberRange := by
  simp only [grabberTiles, List.mem_flatMap, List.mem_filter, List.mem_map, mem_integers, decide_eq_true_eq, inside_iff]
  constructor
  · rintro ⟨y, hy, ⟨x, hx, rfl⟩, hreach⟩
    refine ⟨?_, hreach⟩
    simp only
    omega
  · rintro ⟨hinside, hreach⟩
    have hdistance := hreach
    unfold Position.distance at hdistance
    exact ⟨p.y, by omega, ⟨p.x, by omega, rfl⟩, hreach⟩

theorem pairwise_grabberTiles (r : Robot) (width height : Int) :
    (r.grabberTiles width height).Pairwise Position.ReadBefore := by
  unfold grabberTiles
  rw [List.pairwise_flatMap]
  refine ⟨fun y _ => ?_, ?_⟩
  · exact ((pairwise_integers _ _).map _ fun a b h => .inr ⟨rfl, h⟩).filter _
  · refine (pairwise_integers _ _).imp fun {y z} h => ?_
    intro p hp q hq
    obtain ⟨x, -, rfl⟩ := List.mem_map.1 (List.mem_of_mem_filter hp)
    obtain ⟨x', -, rfl⟩ := List.mem_map.1 (List.mem_of_mem_filter hq)
    exact .inl h

theorem nodup_grabberTiles (r : Robot) (width height : Int) : (r.grabberTiles width height).Nodup :=
  (r.pairwise_grabberTiles width height).imp Position.ReadBefore.ne

/-- The grabber reaches exactly the tiles of the board that are near enough, each once and in the order in which the
board is read. The scanner sees the longest piece of the way ahead that is on the board and within its range. -/
theorem reach_exact (r : Robot) (width height : Int) :
    (∀ p, p ∈ r.grabberTiles width height ↔
        inside width height p = true ∧ (r.position.distance p : Int) ≤ r.upgrades.grabberLevel) ∧
      (r.grabberTiles width height).Nodup ∧ (r.grabberTiles width height).Pairwise Position.ReadBefore ∧
      ∀ step, ∃ n, r.scannerTiles step width height = r.position.onwards step n ∧
        ∀ m : Nat, m ≤ n ↔ (m : Int) ≤ max 0 (1 + r.upgrades.scannerLevel) ∧
          ∀ q ∈ r.position.onwards step m, inside width height q = true := by
  refine ⟨fun p => mem_grabberTiles, r.nodup_grabberTiles width height, r.pairwise_grabberTiles width height, ?_⟩
  intro step
  obtain ⟨n, hlist, hlongest⟩ := ahead_spec (inside width height) step r.scannerRange.toNat r.position
  refine ⟨n, hlist, fun m => ?_⟩
  have hrange : m ≤ r.scannerRange.toNat ↔ (m : Int) ≤ max 0 (1 + r.upgrades.scannerLevel) := by
    unfold scannerRange
    omega
  rw [hlongest, hrange]

end Robot

end ScriptedRobot
