import ScriptedRobot.Proofs.Board.Tiles
import ScriptedRobot.Proofs.Session.World

/-!
# A level is finished exactly when it is complete

`Complete` says in terms of the level itself what completes it: what its flag asks for, or else a spent
turn budget, or all items collected, or every tile known that can be walked on. Nothing of this is ever
undone while the level is played, so a level that was finished once is still complete, and one that is
complete after a command has been finished.
-/

namespace ScriptedRobot

namespace CompletionRule

def Met (signals : CompletionSignals) : CompletionRule → Prop
  | println none => signals.printed ≠ []
  | println (some text) => text ∈ signals.printed
  | error none => signals.errors ≠ []
  | error (some text) => text ∈ signals.errors
  | itemsCollected none => 0 < signals.carried
  | itemsCollected (some n) => n ≤ signals.carried
  | movesMade n => n ≤ signals.turns
  | panic => signals.panicked = true
  | never => False

theorem satisfied_iff {rule : CompletionRule} {signals : CompletionSignals} :
    rule.satisfied signals = true ↔ rule.Met signals := by
  cases rule with
  | println text => cases text <;> simp [satisfied, Met]
  | error text => cases text <;> simp [satisfied, Met]
  | itemsCollected count => cases count <;> simp [satisfied, Met]
  | movesMade n => simp [satisfied, Met]
  | panic => simp [satisfied, Met]
  | never => simp [satisfied, Met]

/-- Signals that only grow keep a rule met. -/
theorem Met.mono {rule : CompletionRule} {x y : CompletionSignals} (h : rule.Met x)
    (printed : ∀ text ∈ x.printed, text ∈ y.printed) (errors : ∀ text ∈ x.errors, text ∈ y.errors)
    (panicked : x.panicked = true → y.panicked = true) (carried : x.carried ≤ y.carried)
    (turns : x.turns ≤ y.turns) : rule.Met y := by
  have nonempty : ∀ {as bs : List String}, (∀ a ∈ as, a ∈ bs) → as ≠ [] → bs ≠ [] := by
    intro as bs hsub has hbs
    obtain ⟨a, ha⟩ := List.exists_mem_of_ne_nil as has
    have hb := hsub a ha
    rw [hbs] at hb
    exact absurd hb List.not_mem_nil
  cases rule with
  | println text =>
    cases text with
    | none => exact nonempty printed h
    | some text => exact printed text h
  | error text =>
    cases text with
    | none => exact nonempty errors h
    | some text => exact errors text h
  | itemsCollected count =>
    cases count with
    | none => exact Int.lt_of_lt_of_le h carried
    | some n => exact Int.le_trans h carried
  | movesMade n => exact Int.le_trans h turns
  | panic => exact panicked h
  | never => exact h

end CompletionRule

namespace Session

variable {σ : Type}

/-- Is every tile known that can be walked on? -/
def Explored (s : Session σ) : Prop :=
  ∀ p, s.play.board.inBounds p = true → p ∉ s.play.board.blockers → p ∈ s.play.board.known

/-- What completes a level without a flag: a spent turn budget, or all items collected, or, if there are
no items, the whole level explored. -/
def PlayedOut (s : Session σ) : Prop :=
  (0 < s.spec.maxTurns ∧ s.spec.maxTurns ≤ s.play.turns) ∨
    (s.play.items.items ≠ [] ∧ ∀ i ∈ s.play.items.items, i.collected = true) ∨
    (s.play.items.items = [] ∧ s.Explored)

/-- What completes the level: what its flag asks for, if it has one. -/
def Complete (s : Session σ) : Prop :=
  match s.spec.texts.completionFlag with
  | some flag => (CompletionRule.ofFlag flag).Met s.signals
  | none => s.PlayedOut

/-- Without a flag the level counts as complete exactly if it is played out. -/
theorem exploration_iff {s : Session σ} (hs : s.play.board.WellFormed) :
    s.exploration.complete = true ↔ s.PlayedOut := by
  have hleft : (s.play.items.active.length : Int) = 0 ↔ ∀ i ∈ s.play.items.items, i.collected = true := by
    rw [Int.natCast_eq_zero, List.length_eq_zero_iff, ItemStore.active, List.filter_eq_nil_iff]
    simp
  have hknown := hs.walkable_known_iff
  unfold Exploration.complete exploration PlayedOut Explored
  simp only
  split
  · rename_i hturns
    refine ⟨fun _ => Or.inl ⟨by omega, by omega⟩, fun _ => rfl⟩
  · rename_i hturns
    have hbudget : ¬ (0 < s.spec.maxTurns ∧ s.spec.maxTurns ≤ s.play.turns) := by omega
    by_cases hitems : s.play.items.items = []
    · simp only [hitems, hbudget, false_or, ne_eq, not_true, false_and, true_and]
      simpa using hknown
    · simp only [hitems, hbudget, false_or, ne_eq, not_false_eq_true, false_and, or_false, true_and]
      simpa [hitems] using hleft

theorem isComplete_iff {levels : List LevelSpec} {s : Session σ} (hs : Grounded levels s)
    (hw : s.WellFormed) : s.isComplete = true ↔ s.Complete := by
  unfold isComplete Complete
  rw [hs.rule]
  cases s.spec.texts.completionFlag with
  | none => exact exploration_iff hw.board
  | some flag => exact CompletionRule.satisfied_iff

theorem Progress.carried_size {s t : Session σ} (k : Progress s t) :
    s.play.robot.inventory.size ≤ t.play.robot.inventory.size := Distinct.size_le_of_subset k.carried

/-- A complete level stays complete while it is played. -/
theorem Complete.progress {s t : Session σ} (h : s.Complete) (k : Progress s t) : t.Complete := by
  have hspec : t.spec = s.spec := congrArg LevelEntry.spec k.entry
  unfold Complete at h ⊢
  rw [hspec]
  split
  · rename_i flag hflag
    rw [hflag] at h
    have hcarried := k.carried_size
    have hturns := k.turns
    exact h.mono k.printed k.errors k.panicked (Int.ofNat_le.2 hcarried) (Int.ofNat_le.2 hturns)
  · rename_i hflag
    rw [hflag] at h
    have hturns := k.turns
    rcases h with ⟨hpos, hspent⟩ | ⟨hitems, hall⟩ | ⟨hitems, hexplored⟩
    · refine Or.inl ?_
      rw [hspec]
      exact ⟨hpos, by omega⟩
    · refine Or.inr (Or.inl ⟨fun hnil => hitems (k.items.eq_nil_iff.1 hnil), ?_⟩)
      intro j hj
      obtain ⟨i, hi, hij⟩ := k.items.mem hj
      exact hij.collected (hall i hi)
    · refine Or.inr (Or.inr ⟨k.items.eq_nil_iff.2 hitems, ?_⟩)
      intro p hp hblocked
      rw [k.board.inBounds] at hp
      rw [k.board.blockers] at hblocked
      exact k.board.known p (hexplored p hp hblocked)

variable [WordSource σ]

/-- The world is in order, and the level is only finished if it is complete. -/
def Earned (s : Session σ) : Prop := s.WellFormed ∧ (s.play.finished = true → s.Complete)

theorem Step.earned {levels : List LevelSpec} {d : Deed} {s t : Session σ} (hs : Grounded levels s)
    (hstep : Step s d t) (h : s.Earned) : t.Earned := by
  obtain ⟨hw, hfinished⟩ := h
  have hp := hstep.progress
  refine ⟨hw.step hstep, ?_⟩
  intro ht
  by_cases hf : s.play.finished = true
  · exact (hfinished hf).progress hp
  · -- of all steps only the completing of the level sets the flag
    cases hstep with
    | finish unfinished complete => exact ((isComplete_iff hs hw).1 complete).progress hp
    | collect found =>
      rename_i p i items
      obtain ⟨timeSlow, he⟩ := (s.onPlay fun play => { play with items := items }).applyItem_spec i
      rw [he] at ht
      exact absurd ht hf
    | _ => exact absurd ht hf

theorem invariant_earned (levels : List LevelSpec) : Invariant levels (Earned : Session σ → Prop) where
  begins := fun {s} hs hb => by
    refine ⟨hb.wellFormed hs, ?_⟩
    obtain ⟨g, hplay⟩ := hb
    rw [hplay]
    intro hf
    cases hf
  step := fun hs hstep h => hstep.earned hs h
  reread := fun {s} load h => by
    refine ⟨(invariant_wellFormed levels).reread load h.1, ?_⟩
    intro hf
    have hcomplete := h.2 hf
    unfold Complete PlayedOut at hcomplete ⊢
    rw [spec_withLoader]
    exact hcomplete
  play := fun {s t} play h => by
    refine ⟨(invariant_wellFormed levels).play play h.1, ?_⟩
    intro hf
    rw [play] at hf
    have hcomplete := h.2 hf
    unfold Complete PlayedOut Explored signals spec at hcomplete ⊢
    rw [play]
    exact hcomplete

/-- After it has been looked whether the level is complete, it is finished exactly if it is. -/
theorem checkCompletion_finished {levels : List LevelSpec} {s : Session σ} (hs : Grounded levels s)
    (h : s.Earned) : s.checkCompletion.play.finished = true ↔ s.checkCompletion.Complete := by
  have hdone := (invariant_earned levels).steps ⟨hs, h⟩ (checkCompletion_steps s)
  refine ⟨hdone.2.2, ?_⟩
  intro hcomplete
  by_cases hf : s.play.finished = true
  · rw [checkCompletion, if_pos hf]
    exact hf
  · by_cases hc : s.isComplete = true
    · rw [checkCompletion, if_neg hf, if_pos hc]
      rfl
    · rw [checkCompletion, if_neg hf, if_neg hc] at hcomplete
      exact absurd ((isComplete_iff hs h.1).2 hcomplete) hc

/-- Completion is neither missed nor spurious. After an allowed command that is answered without an
encounter, the level is finished exactly if it is complete; on the same level nothing that completes it
is ever undone; and counting the known tiles tells exactly whether the level is explored. -/
theorem finished_iff_complete {levels : List LevelSpec} {s t : Session σ} {c : Command} {r : Reply}
    (h : Reachable levels s) (allowed : c.kind ∈ s.availableFunctions)
    (answered : s.execute c = (t, .ok r)) (clear : t.collided = false) :
    (t.play.finished = true ↔ t.Complete) ∧
      (s.destination? c = none → s.Complete → t.Complete) ∧
      (t.play.board.walkableCount ≤ t.play.board.knownWalkable ↔ t.Explored) := by
  have hinvariant := invariant_earned (σ := σ) levels
  have ht : Reachable levels t := by
    have := h.command c
    rwa [answered] at this
  refine ⟨?_, ?_, ?_⟩
  · obtain ⟨u, e, ⟨hu, hearned⟩, rfl⟩ :=
      hinvariant.checked (hinvariant.reachable h) allowed answered clear
    exact checkCompletion_finished hu hearned
  · intro stays hcomplete
    have heffect := execute_effect s c
    rw [answered] at heffect
    have hsteps : Steps s.apart t := heffect.steps stays clear
    have hapart : s.apart.Complete := hcomplete
    exact hapart.progress hsteps.progress
  · exact ht.wellFormed.board.walkable_known_iff

theorem finished_iff_complete_courtyard : (inCourtyard.execute .grab).1.collided = false ∧
    (inCourtyard.execute .grab).1.play.finished = true ∧ (inCourtyard.execute .grab).1.Complete := by
  have allowed : (Command.grab).kind ∈ inCourtyard.availableFunctions := by decide
  have answered : inCourtyard.execute .grab = ((inCourtyard.execute .grab).1, .ok (.grabbed true false)) := rfl
  have clear : (inCourtyard.execute .grab).1.collided = false := by decide
  have finished : (inCourtyard.execute .grab).1.play.finished = true := by decide
  have hiff := finished_iff_complete (.start rfl inCourtyard_starts) allowed answered clear
  exact ⟨clear, finished, hiff.1.1 finished⟩

end Session

end ScriptedRobot
