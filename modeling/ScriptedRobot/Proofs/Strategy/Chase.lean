import ScriptedRobot.Proofs.Board.Patrolling
import ScriptedRobot.Random.Twister

/-!
# Chasers take the shortest way

A chaser steps towards the player on both axes at once as long as it can, so that each step brings it one tile nearer
in the distance that counts a diagonal step as one. It does not leave the rectangle between itself and the player on
its way. If the tiles there are free, it comes to a player who stands still as soon as it can be (`catches_standing`).
-/

namespace ScriptedRobot

namespace Position

/-- How many steps there are between two tiles if steps may be diagonal. -/
def chebyshev (a b : Position) : Nat := max (a.x - b.x).natAbs (a.y - b.y).natAbs

/-- The tile lies in the rectangle between two corners. -/
def InRectangle (a b p : Position) : Prop :=
  (min a.x b.x ≤ p.x ∧ p.x ≤ max a.x b.x) ∧ min a.y b.y ≤ p.y ∧ p.y ≤ max a.y b.y

/-- The step from a tile towards another one. -/
def towards (a b : Position) : Position := ⟨(b.x - a.x).sign, (b.y - a.y).sign⟩

theorem eq_iff {a b : Position} : a = b ↔ a.x = b.x ∧ a.y = b.y := by
  cases a
  cases b
  exact Position.mk.injEq _ _ _ _ ▸ Iff.rfl

variable {a b p : Position}

theorem chebyshev_eq_zero_iff : a.chebyshev b = 0 ↔ a = b := by
  rw [eq_iff, chebyshev, Nat.max_eq_zero_iff, Int.natAbs_eq_zero, Int.natAbs_eq_zero, Int.sub_eq_zero, Int.sub_eq_zero]

theorem natAbs_add_sign (u v : Int) : (u + (v - u).sign - v).natAbs = (u - v).natAbs - 1 := by
  rcases Int.lt_trichotomy (v - u) 0 with behind | there | ahead
  · rw [Int.sign_eq_neg_one_of_neg behind]
    omega
  · rw [there, Int.sign_zero]
    omega
  · rw [Int.sign_eq_one_of_pos ahead]
    omega

theorem chebyshev_towards (apart : a ≠ b) : (a + a.towards b).chebyshev b + 1 = a.chebyshev b := by
  have hfar : 1 ≤ a.chebyshev b := Nat.pos_of_ne_zero (mt chebyshev_eq_zero_iff.1 apart)
  calc (a + a.towards b).chebyshev b + 1
      = max ((a.x - b.x).natAbs - 1) ((a.y - b.y).natAbs - 1) + 1 :=
        congrArg₂ (fun m n => max m n + 1) (natAbs_add_sign a.x b.x) (natAbs_add_sign a.y b.y)
    _ = a.chebyshev b - 1 + 1 := by rw [Nat.sub_max_sub_right, chebyshev]
    _ = a.chebyshev b := Nat.sub_add_cancel hfar

theorem between_add_sign {u v q : Int} (h : min u v ≤ q ∧ q ≤ max u v) :
    min u v ≤ q + (v - q).sign ∧ q + (v - q).sign ≤ max u v := by
  rcases Int.lt_trichotomy (v - q) 0 with behind | there | ahead
  · rw [Int.sign_eq_neg_one_of_neg behind]
    omega
  · rw [there, Int.sign_zero]
    omega
  · rw [Int.sign_eq_one_of_pos ahead]
    omega

theorem InRectangle.towards (h : InRectangle a b p) : InRectangle a b (p + p.towards b) :=
  ⟨between_add_sign h.1, between_add_sign h.2⟩

theorem inRectangle_self : InRectangle a b a := by
  unfold InRectangle
  omega

end Position

namespace Chase

variable {σ : Type} [WordSource σ]

theorem ask_chase (chasing : Bool) {turn : Enemy.Turn σ} {here player : Position} (seen : turn.player = some player)
    (apart : here ≠ player) (free : turn.board.isFree (here + here.towards player) = true) :
    (Strategy.chase chasing).ask turn here = (some (here + here.towards player), .chase true) := by
  show Strategy.chaseNext turn.board.isFree turn.player here = _
  -- a step that leads nowhere would not lead nearer
  have hstep : here.towards player ≠ ⟨0, 0⟩ := by
    intro hzero
    have hnearer := Position.chebyshev_towards apart
    have hstays : here + here.towards player = here := by
      rw [hzero, Position.eq_iff]
      simp
    rw [hstays] at hnearer
    omega
  rw [seen]
  exact if_pos ⟨hstep, free⟩

/-- What a chaser has come to after some turns: as many steps nearer to the player, and still within the rectangle
between its first tile and the player. -/
structure Nearing (start player : Position) (t : Nat) (e : Enemy) : Prop where
  chases : ∃ chasing, e.strategy = .chase chasing
  straight : 0 < t → e.strategy = .chase true
  nearer : e.position.chebyshev player + t = start.chebyshev player
  between : start.InRectangle player e.position

/-- A turn brings a chaser one step nearer if the tiles of the rectangle are free, other than the one that it stands
on and the one that it started from. -/
theorem Nearing.tick {start player : Position} {t : Nat} {e : Enemy} (h : Nearing start player t e)
    (far : t < start.chebyshev player) {turn : Enemy.Turn σ} (seen : turn.player = some player)
    (clear : ∀ p, start.InRectangle player p → p ≠ start → p ≠ e.position → turn.board.isFree p = true) :
    Nearing start player (t + 1) (e.tick turn) := by
  obtain ⟨⟨chasing, chases⟩, -, nearer, between⟩ := h
  have apart : e.position ≠ player := by
    intro there
    have hzero := Position.chebyshev_eq_zero_iff.2 there
    omega
  have hnearer := Position.chebyshev_towards apart
  have hstart : e.position + e.position.towards player ≠ start := by
    intro back
    rw [back] at hnearer
    omega
  have hmoves : e.position + e.position.towards player ≠ e.position := by
    intro stays
    rw [stays] at hnearer
    omega
  have hask := ask_chase chasing seen apart (clear _ between.towards hstart hmoves)
  rw [← chases] at hask
  obtain ⟨-, hposition, hstrategy⟩ := Enemy.tick_of_ask hask
  have hgoes : (e.tick turn).position = e.position + e.position.towards player := hposition
  refine ⟨⟨true, hstrategy⟩, fun _ => hstrategy, ?_, ?_⟩
  · rw [hgoes]
    omega
  · rw [hgoes]
    exact between.towards

/-- A chaser catches a player who stands still by the shortest way. Let all tiles of the rectangle between the two be
free at its turns, but for the one that it started from and the one that it stands on then. After each of these turns,
as long as there are no more of them than steps to the player, it is as many steps nearer, and it has been chasing at
all of them; so it comes to the player with the last of these steps and not earlier. -/
theorem catches_standing {e : Enemy} {chasing : Bool} (chases : e.strategy = .chase chasing) {player : Position}
    {turns : List (Enemy.Turn σ)} (short : turns.length ≤ e.position.chebyshev player)
    (seen : ∀ turn ∈ turns, turn.player = some player)
    (clear : ∀ t turn, turns[t]? = some turn → ∀ p, e.position.InRectangle player p → p ≠ e.position →
      p ≠ (e.patrol (turns.take t)).position → turn.board.isFree p = true) :
    ∀ t ≤ turns.length,
      (e.patrol (turns.take t)).position.chebyshev player = e.position.chebyshev player - t ∧
        ((e.patrol (turns.take t)).position = player ↔ t = e.position.chebyshev player) ∧
        (0 < t → (e.patrol (turns.take t)).strategy = .chase true) := by
  have hstart : Nearing e.position player 0 e := ⟨⟨chasing, chases⟩, nofun, rfl, Position.inRectangle_self⟩
  have hnearing := Enemy.patrol_counts (Q := Nearing e.position player) hstart fun t turn hturn h => by
    obtain ⟨ht, -⟩ := List.getElem?_eq_some_iff.1 hturn
    exact h.tick (Nat.lt_of_lt_of_le ht short) (seen turn (List.mem_of_getElem? hturn)) (clear t turn hturn)
  intro t ht
  obtain ⟨-, straight, nearer, -⟩ := hnearing t ht
  refine ⟨by omega, ?_, straight⟩
  rw [← Position.chebyshev_eq_zero_iff]
  omega

/-- A hound at the lower edge of an arena. -/
def hound : Enemy := ⟨⟨4, 3⟩, .horizontal, true, some "chase", .chase false⟩

def prey : Position := ⟨0, 1⟩

/-- The arena with the hound on a tile, and with blockers beside the rectangle between hound and prey. -/
def arena (here : Position) : Enemy.Turn Random.Twister where
  board :=
    { width := 6, height := 4, blockers := .ofList [⟨5, 3⟩, ⟨2, 0⟩], enemies := [{ hound with position := here }] }
  player := some prey
  words := ⟨Vector.replicate _ 0, 0⟩

theorem arena_isFree {here p : Position} (between : hound.position.InRectangle prey p) (other : p ≠ here) :
    (arena here).board.isFree p = true := by
  simp only [Position.InRectangle, hound, prey] at between
  have hblockers : p ∉ (arena here).board.blockers := by
    intro hmem
    have hlisted : (p.x = 5 ∧ p.y = 3) ∨ (p.x = 2 ∧ p.y = 0) := by simpa [arena, Position.eq_iff] using hmem
    omega
  refine Board.isFree_iff.2 ⟨?_, hblockers, fun hdoor => absurd hdoor (by simp [arena]), ?_⟩
  · rw [Board.inBounds, inside_iff]
    show (0 ≤ p.x ∧ p.x < 6) ∧ 0 ≤ p.y ∧ p.y < 4
    omega
  · intro e he
    have hhound : e = { hound with position := here } := List.mem_singleton.1 he
    rw [hhound]
    exact Ne.symm other

/-- Where the hound stands at its four turns. -/
def huntedOver : List Position := [⟨4, 3⟩, ⟨3, 2⟩, ⟨2, 1⟩, ⟨1, 1⟩]

/-- Two diagonal steps and two straight ones. -/
theorem catches_standing_arena :
    hound.position.chebyshev prey = 4 ∧ (hound.patrol (huntedOver.map arena)).position = prey := by
  have hstands : ∀ t < 4, huntedOver[t]? = some (hound.patrol ((huntedOver.map arena).take t)).position := by
    decide +kernel
  have hseen : ∀ turn ∈ huntedOver.map arena, turn.player = some prey := by
    intro turn hturn
    obtain ⟨here, -, rfl⟩ := List.mem_map.1 hturn
    rfl
  have hcatches := catches_standing (e := hound) rfl (by decide) hseen
    (fun t turn hturn p between _ other => by
      obtain ⟨ht, -⟩ := List.getElem?_eq_some_iff.1 hturn
      rw [List.getElem?_map, hstands t ht] at hturn
      cases hturn
      exact arena_isFree between other)
  exact ⟨by decide, (hcatches 4 (by decide)).2.1.2 (by decide)⟩

end Chase

end ScriptedRobot
