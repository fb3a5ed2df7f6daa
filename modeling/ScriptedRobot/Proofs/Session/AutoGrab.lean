import ScriptedRobot.Proofs.Session.Collecting

/-!
# Grabs that are spared

A robot that grabs at every step first looks whether there is anything to grab. What it spares that way are exactly
the grabs that would leave the session as it is, so it moves as if it grabbed wherever it arrives (`spared_iff_idle`).
-/

namespace ScriptedRobot

namespace Board

/-- Where everything is known there is nothing to reveal. -/
theorem revealAll_of_known {b : Board} {ps : List Position} (known : ∀ p ∈ ps, p ∈ b.known) :
    b.revealAll ps = b ∧ b.countHidden ps = 0 := by
  induction ps with
  | nil => exact ⟨rfl, rfl⟩
  | cons p ps ih =>
    obtain ⟨hp, hps⟩ := List.forall_mem_cons.1 known
    have plain : ¬ b.isHidden p = true := by simp [isHidden, hp]
    have hfirst : b.reveal p = b := if_neg plain
    obtain ⟨hrest, hcount⟩ := ih hps
    rw [revealAll, List.foldl_cons, hfirst, ← revealAll, countHidden, if_neg plain, hfirst, hcount]
    exact ⟨hrest, rfl⟩

end Board

namespace Session

variable {σ : Type} {s : Session σ} {ps : List Position}

theorem hasGrabbable_eq_false_iff : s.hasGrabbable = false ↔
    ∀ p ∈ s.reach, p ∈ s.play.board.known ∧ s.play.items.itemAt? p = none := by
  simp [hasGrabbable]

theorem collectAll_of_none (none : ∀ p ∈ ps, s.play.items.itemAt? p = none) : collectAll ps s = (s, []) := by
  induction ps with
  | nil => rfl
  | cons p ps ih =>
    obtain ⟨hp, hps⟩ := List.forall_mem_cons.1 none
    have hcollect : s.play.items.collectAt p = (Option.none, s.play.items) := by rw [ItemStore.collectAt, hp]
    rw [collectAll, hcollect]
    exact ih hps

theorem claim_of_known (known : ∀ p ∈ ps, p ∈ s.play.board.known) : s.claim ps = (s, 0) := by
  obtain ⟨hboard, hcount⟩ := Board.revealAll_of_known known
  simp [claim, onPlay, hboard, hcount]

/-- A grab where there is nothing to grab comes to nothing. -/
theorem grab_of_nothing (nothing : s.hasGrabbable = false) : s.grab = (s, .grabbed false false) := by
  have hreach := hasGrabbable_eq_false_iff.1 nothing
  have hcollect : collectAll s.reach s = (s, []) := collectAll_of_none fun p hp => (hreach p hp).2
  have hclaim : s.claim s.reach = (s, 0) := claim_of_known fun p hp => (hreach p hp).1
  simp [grab, hcollect, hclaim]

/-- A grab that leaves the session as it is has found nothing: no item, and so no tile either. -/
theorem nothing_of_grab (idle : s.grab.1 = s) : s.hasGrabbable = false := by
  have hplay := s.grab_play.1
  rw [idle] at hplay
  -- what lies on a tile in reach is what lies there without the first item
  have hitems : ∀ p ∈ s.reach, s.play.items.itemAt? p = none := by
    intro p hp
    have hlying : s.play.items.lying p = (s.play.items.lying p).tail := by
      have hleft := lying_collectAll s.nodup_reach s p
      rw [if_pos hp] at hleft
      rw [← hleft]
      exact congrArg (fun play => play.items.lying p) hplay
    rw [ItemStore.itemAt?_eq_head?, List.head?_eq_none_iff]
    cases he : s.play.items.lying p with
    | nil => rfl
    | cons i rest =>
      rw [he] at hlying
      exact absurd hlying (List.cons_ne_self i rest)
  have hcollect : collectAll s.reach s = (s, []) := collectAll_of_none hitems
  rw [hcollect] at hplay
  have hboard : s.play.board = s.play.board.revealAll s.reach := congrArg Play.board hplay
  obtain ⟨known, hrevealed, hknown⟩ := s.play.board.revealAll_spec s.reach
  refine hasGrabbable_eq_false_iff.2 fun p hp => ⟨?_, hitems p hp⟩
  rw [hboard, hrevealed]
  exact (hknown p).2 (.inr ⟨hp, (mem_reach.1 hp).1⟩)

variable [WordSource σ]

/-- A move as `Session.move`, but for when a robot that grabs at every step does so: where the test says. -/
def moveWhere (grabs : Session σ → Bool) (s : Session σ) (step : Position) : Session σ × Reply :=
  let here := s.play.robot.position
  let target := here + step
  let s := s.onPlay fun p => { p with turns := p.turns + 1 }
  if !s.play.board.inBounds target then (s, .blocked)
  else if s.isBlocked target then (s.onBoard fun b => b.revealAround here, .blocked)
  else
    let s := s.stepOnto target
    if s.meetsEnemy then (s.collide, .collision)
    else
      let s := if s.play.robot.autoGrab && grabs s then s.grab.1 else s
      let s := s.endTurn
      (s, if s.collided then .collision else .moved)

theorem move_eq_moveWhere (s : Session σ) (step : Position) : s.move step = s.moveWhere hasGrabbable step := rfl

/-- The grabs that a robot spares itself where it sees nothing to grab are those that leave the session as it is. So
every move leads where it leads for a robot that grabs wherever it arrives. -/
theorem spared_iff_idle (s : Session σ) :
    (s.hasGrabbable = false ↔ s.grab.1 = s) ∧ ∀ step, s.moveWhere (fun _ => true) step = s.move step := by
  refine ⟨⟨fun nothing => ?_, nothing_of_grab⟩, fun step => ?_⟩
  · rw [grab_of_nothing nothing]
  · have hgrab : ∀ t : Session σ, (if t.play.robot.autoGrab && true then t.grab.1 else t) =
        if t.play.robot.autoGrab && t.hasGrabbable then t.grab.1 else t := by
      intro t
      by_cases nothing : t.hasGrabbable = false
      · rw [grab_of_nothing nothing, ite_self, ite_self]
      · rw [Bool.eq_true_of_not_eq_false nothing]
    rw [move_eq_moveWhere]
    simp only [moveWhere, hgrab]

end Session

end ScriptedRobot
