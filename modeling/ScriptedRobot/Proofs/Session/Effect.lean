import ScriptedRobot.Proofs.Session.Step
import ScriptedRobot.Session.Batch

/-!
# What a command can do

`Effect` lists all that executing a command can lead to: it is refused, it fails to enter a level, it
enters one, it goes through small steps, or it comes to an encounter. `execute_effect` says that there
is nothing else. Every statement about commands is a case analysis of it.
-/

namespace ScriptedRobot.Session

open Relation

variable {σ : Type}

/-- The index of the level that a command goes to, if it goes to one. -/
def destination? (s : Session σ) : Command → Option Int
  | .skipLevel => if s.level + 1 ≥ s.campaign.levels.length then none else some (s.level + 1)
  | .gotoLevel n => if 1 ≤ n ∧ n ≤ s.campaign.levels.length then some (n - 1) else none
  | _ => none

/-- The session as a command finds it: nothing has met yet. -/
def apart (s : Session σ) : Session σ := { s with collided := false }

/-- Going to a level is always allowed. -/
theorem allowed_of_destination {s : Session σ} {c : Command} {i : Int} (h : s.destination? c = some i) :
    c.kind ∈ s.availableFunctions := by
  cases c with
  | skipLevel => simp [Command.kind, availableFunctions, Robot.availableFunctions]
  | gotoLevel n => simp [Command.kind, availableFunctions, Robot.availableFunctions]
  | _ => cases h

/-- Laser commands are only allowed where lasers work. -/
theorem isArmed_of_laser {s : Session σ} {kind : CommandKind} (h : kind ∈ s.availableFunctions)
    (laser : kind = .laserDirection ∨ kind = .laserTile) : s.IsArmed := by
  by_cases armed : s.level ≥ enemyLevelIndex ∨ s.play.robot.upgrades.attackRange > 0
  · exact armed
  · exfalso
    simp only [availableFunctions, Robot.availableFunctions, if_neg armed] at h
    rcases laser with rfl | rfl
    · split at h <;> simp at h
    · split at h <;> simp at h

variable [WordSource σ]

theorem checkCompletion_finish (s : Session σ) : StepsOf [.finish] s s.checkCompletion := by
  unfold checkCompletion
  split
  · exact .refl
  · rename_i unfinished
    split
    · rename_i complete
      exact (Step.finish (by simpa using unfinished) complete).steps (by decide)
    · exact .refl

theorem checkCompletion_steps (s : Session σ) : Steps s s.checkCompletion := (checkCompletion_finish s).steps

/-- All that executing a command can lead to, with its answer. -/
inductive Effect (s : Session σ) (c : Command) : Session σ × Except EntryFailure Reply → Prop where
  /-- The level does not allow the command. -/
  | refused (h : c.kind ∉ s.availableFunctions) :
      Effect s c (s.apart.report (.executed c.kind Reply.notAvailable.text), .ok .notAvailable)
  /-- A level cannot be entered. -/
  | failed {i : Int} {t : Session σ} {failure : EntryFailure} (goes : s.destination? c = some i)
      (load : s.apart.load i = (t, .error failure)) : Effect s c (t, .error failure)
  /-- A level is entered, and perhaps completed at once. -/
  | entered {i : Int} {t : Session σ} {r : Reply} (goes : s.destination? c = some i)
      (load : s.apart.load i = (t, .ok ())) :
      Effect s c (t.checkCompletion.report (.executed c.kind r.text), .ok r)
  /-- The command goes through small steps, and the level is perhaps completed after them. -/
  | settled {t : Session σ} {r : Reply} (allowed : c.kind ∈ s.availableFunctions)
      (stays : s.destination? c = none) (steps : StepsOf c.deeds s.apart t) :
      Effect s c (t.checkCompletion.report (.executed c.kind r.text), .ok r)
  /-- The robot and an enemy meet, and the level is reset. -/
  | met {t u : Session σ} (allowed : c.kind ∈ s.availableFunctions) (stays : s.destination? c = none)
      (steps : StepsOf c.deeds s.apart t) (met : Encounter t u) :
      Effect s c (u.collide.report (.executed c.kind Reply.collision.text), .ok .collision)

/-- A command that goes to a level enters it. -/
theorem perform_of_destination {s : Session σ} {c : Command} {i : Int} (h : s.destination? c = some i) :
    ∃ r, s.perform c = s.enterLevel i r := by
  cases c with
  | skipLevel =>
    simp only [destination?] at h
    split at h
    · cases h
    · rename_i hlast
      cases h
      exact ⟨_, if_neg hlast⟩
  | gotoLevel n =>
    simp only [destination?] at h
    split at h
    · rename_i hrange
      cases h
      exact ⟨_, if_pos hrange⟩
    · cases h
  | _ => cases h

/-- An allowed command that goes to no level answers, and comes to an outcome of a turn. -/
theorem perform_outcome {s : Session σ} {c : Command} (allowed : c.kind ∈ s.availableFunctions)
    (h : s.destination? c = none) : ∃ t r, s.perform c = (t, .ok r) ∧ Outcome c.deeds s t := by
  cases c with
  | move heading =>
    unfold perform
    simp only
    split
    · exact ⟨_, _, rfl, .settled .refl⟩
    · exact ⟨_, _, rfl, move_outcome s heading⟩
  | grab => exact ⟨_, _, rfl, (grab_steps s).thenEndTurn⟩
  | scan heading => exact ⟨_, _, rfl, scan_outcome s heading.step⟩
  | searchAll => exact ⟨_, _, rfl, searchAll_outcome s⟩
  | setAutoGrab on => exact ⟨_, _, rfl, .settled ((Step.autoGrab s on).steps (.head _))⟩
  | laserDirection heading =>
    have armed := isArmed_of_laser allowed (.inl rfl)
    exact ⟨_, _, rfl, (fireDirection_steps armed heading.step).thenEndTurn⟩
  | laserTile p =>
    have armed := isArmed_of_laser allowed (.inr rfl)
    exact ⟨_, _, rfl, (fireTile_steps armed p).thenEndTurn⟩
  | openDoor wide => exact ⟨_, _, rfl, (turnDoor_steps s wide).thenEndTurn⟩
  | skipLevel =>
    simp only [destination?] at h
    split at h
    · rename_i hlast
      exact ⟨s, _, if_pos hlast, .settled .refl⟩
    · cases h
  | gotoLevel n =>
    simp only [destination?] at h
    split at h
    · cases h
    · rename_i hrange
      exact ⟨s, _, if_neg hrange, .settled .refl⟩
  | println text => exact ⟨_, _, rfl, .settled ((Step.print s text).steps (.head _))⟩
  | eprintln text => exact ⟨_, _, rfl, .settled ((Step.complain s text).steps (.head _))⟩
  | panic message => exact ⟨_, _, rfl, .settled ((Step.giveUp s).steps (.head _))⟩

/-- Loading a level does not touch the flag that says whether robot and enemy have met. -/
theorem load_collided {s t : Session σ} {i : Int} {answer : Except EntryFailure Unit}
    (h : s.load i = (t, answer)) : t.collided = s.collided := by
  unfold load at h
  split at h <;> cases h <;> rfl

theorem execute_refused {s : Session σ} {c : Command} (h : c.kind ∉ s.availableFunctions) :
    s.execute c = (s.apart.report (.executed c.kind Reply.notAvailable.text), .ok .notAvailable) := by
  unfold execute
  exact if_pos h

theorem execute_failed {s t : Session σ} {c : Command} {failure : EntryFailure}
    (allowed : c.kind ∈ s.availableFunctions) (h : s.apart.perform c = (t, .error failure)) :
    s.execute c = (t, .error failure) := by
  unfold apart at h
  simp only [execute, h]
  exact if_neg (not_not_intro allowed)

theorem execute_answered {s t : Session σ} {c : Command} {r : Reply}
    (allowed : c.kind ∈ s.availableFunctions) (h : s.apart.perform c = (t, .ok r))
    (clear : t.collided = false) :
    s.execute c = (t.checkCompletion.report (.executed c.kind r.text), .ok r) := by
  unfold apart at h
  simp only [execute, h, clear]
  exact if_neg (not_not_intro allowed)

theorem execute_met {s t : Session σ} {c : Command} {r : Reply}
    (allowed : c.kind ∈ s.availableFunctions) (h : s.apart.perform c = (t, .ok r))
    (meets : t.collided = true) :
    s.execute c = (t.report (.executed c.kind Reply.collision.text), .ok .collision) := by
  unfold apart at h
  simp only [execute, h, meets]
  exact if_neg (not_not_intro allowed)

theorem execute_loads {s t : Session σ} {c : Command} {i : Int} (goes : s.destination? c = some i)
    (load : s.apart.load i = (t, .ok ())) :
    ∃ r, s.execute c = (t.checkCompletion.report (.executed c.kind r.text), .ok r) := by
  obtain ⟨r, hp⟩ := perform_of_destination (s := s.apart) goes
  rw [enterLevel, load] at hp
  exact ⟨r, execute_answered (allowed_of_destination goes) hp (load_collided load)⟩

/-- A command that is answered is refused, or robot and enemy have met, or it answers what carrying it out
does. -/
theorem execute_ok {s t : Session σ} {c : Command} {r : Reply} (h : s.execute c = (t, .ok r)) :
    (c.kind ∉ s.availableFunctions ∧ t.collided = false ∧ r = .notAvailable) ∨
      (t.collided = true ∧ r = .collision) ∨
      (c.kind ∈ s.availableFunctions ∧ t.collided = false ∧ ∃ u, s.apart.perform c = (u, .ok r)) := by
  by_cases allowed : c.kind ∈ s.availableFunctions
  · rcases hp : s.apart.perform c with ⟨u, failure | reply⟩
    · rw [execute_failed allowed hp] at h
      cases h
    · by_cases meets : u.collided = true
      · rw [execute_met allowed hp meets] at h
        cases h
        exact .inr (.inl ⟨meets, rfl⟩)
      · simp only [Bool.not_eq_true] at meets
        rw [execute_answered allowed hp meets] at h
        cases h
        exact .inr (.inr ⟨allowed, (checkCompletion_steps u).collided.trans meets, u, rfl⟩)
  · rw [execute_refused allowed] at h
    cases h
    exact .inl ⟨allowed, rfl, rfl⟩

/-- There is nothing else that executing a command can lead to. -/
theorem execute_effect (s : Session σ) (c : Command) : Effect s c (s.execute c) := by
  by_cases allowed : c.kind ∈ s.availableFunctions
  · cases hd : s.destination? c with
    | some i =>
      rcases hl : s.apart.load i with ⟨t, failure | ⟨⟩⟩
      · obtain ⟨r, hp⟩ := perform_of_destination (s := s.apart) hd
        rw [enterLevel, hl] at hp
        rw [execute_failed allowed hp]
        exact .failed hd hl
      · obtain ⟨r, he⟩ := execute_loads hd hl
        rw [he]
        exact .entered hd hl
    | none =>
      obtain ⟨t, r, hp, ho⟩ := perform_outcome (s := s.apart) allowed hd
      cases ho with
      | settled steps =>
        rw [execute_answered allowed hp steps.steps.collided]
        exact .settled allowed hd steps
      | reset steps met =>
        rw [execute_met allowed hp rfl]
        exact .met allowed hd steps met
  · rw [execute_refused allowed]
    exact .refused allowed

/-- A command that goes to no level, and after which robot and enemy have not met, went through small
steps alone. -/
theorem Effect.steps {s : Session σ} {c : Command} {outcome : Session σ × Except EntryFailure Reply}
    (h : Effect s c outcome) (stays : s.destination? c = none) (clear : outcome.1.collided = false) :
    Steps s.apart outcome.1 := by
  cases h with
  | refused _ => exact .single ⟨_, .answer _ _ _⟩
  | failed goes _ => rw [stays] at goes; cases goes
  | entered goes _ => rw [stays] at goes; cases goes
  | settled _ _ steps =>
    exact (steps.steps.trans (checkCompletion_steps _)).tail ⟨_, .answer _ _ _⟩
  | met _ _ _ _ => cases clear

/-- A command after which robot and enemy have met went through small steps to an encounter, and reset
the level then. -/
theorem Effect.encounter {s : Session σ} {c : Command} {outcome : Session σ × Except EntryFailure Reply}
    (h : Effect s c outcome) (meets : outcome.1.collided = true) :
    ∃ t u, Steps s.apart t ∧ Encounter t u ∧
      outcome.1 = u.collide.report (.executed c.kind Reply.collision.text) := by
  have apart : ∀ {t : Session σ}, t.collided = false → t.checkCompletion.collided = false := by
    intro t ht
    rw [(checkCompletion_steps t).collided, ht]
  cases h with
  | refused _ => cases meets
  | failed _ load =>
    rw [load_collided load] at meets
    cases meets
  | entered _ load =>
    have hclear := apart (load_collided load)
    exact absurd meets (Bool.eq_false_iff.1 hclear)
  | settled _ _ steps =>
    have hclear := apart steps.steps.collided
    exact absurd meets (Bool.eq_false_iff.1 hclear)
  | met _ _ steps met => exact ⟨_, _, steps.steps, met, rfl⟩

end ScriptedRobot.Session
