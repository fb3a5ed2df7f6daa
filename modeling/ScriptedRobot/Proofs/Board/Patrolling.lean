import ScriptedRobot.Proofs.Board.Advancing

/-!
# An enemy goes its way

What an enemy does at its turn depends on the board as it is then, on where the player is, and on the words that
the source gives. `Enemy.patrol` lets one enemy have some turns, each on a board of its own, whatever else may have
happened in between. An enemy of a board that advances has its turn in this way or is stunned
(`advance_patrols`), so what holds of every patrol holds of every enemy.
-/

namespace ScriptedRobot

/-- What an enemy finds at its turn. -/
structure Enemy.Turn (σ : Type) where
  /-- The board. -/
  board : Board
  /-- Where the player is, if anywhere. -/
  player : Option Position
  /-- The source of random numbers. -/
  words : σ

variable {σ : Type} [WordSource σ]

/-- What a strategy answers at a turn when its enemy stands here: where to go, and what it is afterwards. -/
def Strategy.ask (s : Strategy) (turn : Enemy.Turn σ) (here : Position) : Option Position × Strategy :=
  let answer := s.next turn.board.isFree turn.player here turn.words
  (answer.1, answer.2.1)

namespace Enemy

/-- Where an enemy goes at its turn, if anywhere. -/
def target (e : Enemy) (turn : Turn σ) : Option Position := (e.strategy.ask turn e.position).1

/-- What an enemy is after its turn. -/
def tick (e : Enemy) (turn : Turn σ) : Enemy :=
  let strategy := (e.strategy.ask turn e.position).2
  { e with
    position := (e.target turn).getD e.position
    positive := strategy.sense?.getD e.positive
    strategy := strategy }

/-- What an enemy is after some turns. -/
def patrol (e : Enemy) (turns : List (Turn σ)) : Enemy := turns.foldl tick e

/-- The tiles that an enemy steps onto in some turns. -/
def trail : Enemy → List (Turn σ) → List Position
  | _, [] => []
  | e, turn :: turns => (e.target turn).toList ++ trail (e.tick turn) turns

variable {e : Enemy} {turn : Turn σ} {turns : List (Turn σ)}

/-- What a strategy answers is all that there is to a turn. -/
theorem tick_of_ask {target : Option Position} {s : Strategy} (h : e.strategy.ask turn e.position = (target, s)) :
    e.target turn = target ∧ (e.tick turn).position = target.getD e.position ∧ (e.tick turn).strategy = s := by
  unfold tick Enemy.target
  rw [h]
  exact ⟨rfl, rfl, rfl⟩

theorem patrol_concat : e.patrol (turns ++ [turn]) = (e.patrol turns).tick turn := List.foldl_concat tick e turn turns

/-- What holds of an enemy, and every turn keeps, holds of it ever after. -/
theorem patrol_keeps {P : Enemy → Prop} (start : P e) (keep : ∀ (e : Enemy) (turn : Turn σ), P e → P (e.tick turn))
    (turns : List (Turn σ)) : P (e.patrol turns) :=
  List.foldlRecOn turns tick start fun e h turn _ => keep e turn h

/-- What holds of an enemy at first, and each turn takes from one count to the next, holds of it after any of some
turns. -/
theorem patrol_counts {Q : Nat → Enemy → Prop} (start : Q 0 e)
    (goes : ∀ t turn, turns[t]? = some turn → Q t (e.patrol (turns.take t)) →
      Q (t + 1) ((e.patrol (turns.take t)).tick turn)) :
    ∀ t ≤ turns.length, Q t (e.patrol (turns.take t)) := by
  intro t ht
  induction t with
  | zero => exact start
  | succ t ih =>
    have hturn : turns[t]? = some turns[t] := List.getElem?_eq_getElem ht
    rw [List.take_add_one, hturn, Option.toList_some, patrol_concat]
    exact goes t turns[t] hturn (ih (Nat.le_of_succ_le ht))

end Enemy

namespace Board

/-- The tick of an enemy on a board is its turn there. -/
theorem TicksTo.eq_tick {b : Board} {player target : Option Position} {e e' : Enemy}
    (h : TicksTo σ b player e e' target) : ∃ words : σ, e' = e.tick ⟨b, player, words⟩ := by
  obtain ⟨g, g', hnext, he⟩ := h
  refine ⟨g, ?_⟩
  rw [he, Enemy.tick, Enemy.target, Strategy.ask, hnext]

/-- When the enemies advance, each of them has its turn on the board that those before it have left, unless it is
stunned. -/
theorem advance_patrols (b : Board) (player : Option Position) (stunned : Nat → Bool) (g : σ) {i : Nat} {e : Enemy}
    (there : b.enemies[i]? = some e) :
    (b.advance player stunned g).1.enemies[i]? = some e ∨
      ∃ turn : Enemy.Turn σ, (b.advance player stunned g).1.enemies[i]? = some (e.tick turn) := by
  cases awake : stunned i with
  | true => exact .inl ((b.advance_frozen player stunned g awake).trans there)
  | false =>
    obtain ⟨target, e', hticks, hafter, -⟩ := b.advance_ticks player stunned g there awake
    obtain ⟨words, rfl⟩ := hticks.eq_tick
    exact .inr ⟨_, hafter⟩

end Board

end ScriptedRobot
