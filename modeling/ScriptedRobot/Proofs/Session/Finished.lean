import ScriptedRobot.Proofs.Session.Course
import ScriptedRobot.Proofs.Session.Rollback

/-!
# A finished level stays finished

Once a level is finished, no command undoes it, and none but a search moves the robot. Only an encounter
does both: it resets the level. `Step.finished_eq` and `Step.position_eq` say which steps touch the two at
all.
-/

namespace ScriptedRobot

theorem Command.finish_not_mem_deeds (c : Command) : .finish ∉ c.deeds := by
  cases c <;> simp [deeds, Deed.ofMove, Deed.ofGrab, Deed.ofLaser, Deed.ofTurn]

theorem Command.walk_not_mem_deeds {c : Command} (move : c.kind ≠ .move) (search : c ≠ .searchAll) :
    .walk ∉ c.deeds := by
  cases c with
  | move heading => exact absurd rfl move
  | searchAll => exact absurd rfl search
  | _ => simp [deeds, Deed.ofGrab, Deed.ofLaser, Deed.ofTurn]

namespace Session

variable {σ : Type} [WordSource σ]

/-- Only completing the level changes whether it is finished. -/
theorem Step.finished_eq {d : Deed} {s t : Session σ} (h : Step s d t) (hd : d ≠ .finish) :
    t.play.finished = s.play.finished := by
  cases h with
  | finish _ _ => exact absurd rfl hd
  | collect found =>
    rename_i p i items
    obtain ⟨timeSlow, he⟩ := (s.onPlay fun play => { play with items := items }).applyItem_spec i
    rw [he]
    rfl
  | _ => rfl

/-- Only walking moves the robot. -/
theorem Step.position_eq {d : Deed} {s t : Session σ} (h : Step s d t) (hd : d ≠ .walk) :
    t.play.robot.position = s.play.robot.position := by
  cases h with
  | walk _ _ _ _ => exact absurd rfl hd
  | collect found =>
    rename_i p i items
    obtain ⟨timeSlow, he⟩ := (s.onPlay fun play => { play with items := items }).applyItem_spec i
    rw [he]
    exact position_equip _ i
  | _ => rfl

omit [WordSource σ] in
theorem checkCompletion_position (s : Session σ) :
    s.checkCompletion.play.robot.position = s.play.robot.position := by
  unfold checkCompletion
  split
  · rfl
  · split <;> rfl

/-- A command that goes to no level and meets no enemy leaves a finished level finished. -/
theorem execute_finished {s : Session σ} {c : Command} (finished : s.play.finished = true)
    (stays : s.destination? c = none) (clear : (s.execute c).1.collided = false) :
    (s.execute c).1.play.finished = true := by
  have hsteps : Steps s.apart (s.execute c).1 := (execute_effect s c).steps stays clear
  exact hsteps.progress.finished finished

/-- On a finished level only a search moves the robot. -/
theorem execute_position {s : Session σ} {c : Command} (finished : s.play.finished = true)
    (stays : s.destination? c = none) (clear : (s.execute c).1.collided = false) (search : c ≠ .searchAll) :
    (s.execute c).1.play.robot.position = s.play.robot.position := by
  by_cases move : c.kind = .move
  · cases c with
    | move heading =>
      have allowed : (Command.move heading).kind ∈ s.availableFunctions := by
        simp [Command.kind, availableFunctions, Robot.availableFunctions]
      have hp : s.apart.perform (.move heading) = (s.apart, .ok .alreadyComplete) := if_pos finished
      rw [execute_answered allowed hp rfl]
      exact checkCompletion_position s.apart
    | _ => cases move
  · have heffect := execute_effect s c
    generalize s.execute c = outcome at heffect clear ⊢
    cases heffect with
    | refused _ => rfl
    | failed goes _ => rw [stays] at goes; cases goes
    | entered goes _ => rw [stays] at goes; cases goes
    | settled _ _ steps =>
      have hsteps := steps.unchanged (·.play.robot.position) fun hd hstep =>
        hstep.position_eq fun hwalk => Command.walk_not_mem_deeds move search (hwalk ▸ hd)
      exact (checkCompletion_position _).trans hsteps
    | met _ _ _ _ => cases clear

theorem execute_reset {levels : List LevelSpec} {s : Session σ} {c : Command} (h : Reachable levels s)
    (meets : (s.execute c).1.collided = true) :
    (s.execute c).1.play.finished = false ∧ (s.execute c).1.play.robot.position = s.spec.start := by
  obtain ⟨t, u, hsteps, hmet, he⟩ := (execute_effect s c).encounter meets
  have hentry : u.play.entry = s.play.entry := (hsteps.progress.trans hmet.progress).entry
  have hplay : (s.execute c).1.play = (s.play.entry.begin u.rng).1 := by
    rw [he, ← hentry]
    rfl
  rw [hplay]
  exact ⟨rfl, h.grounded.entry.start⟩

omit [WordSource σ] in
theorem destination_eq_none {s : Session σ} {c : Command}
    (h : c.kind ≠ .skipLevel ∧ c.kind ≠ .gotoLevel) : s.destination? c = none := by
  cases c with
  | skipLevel => exact absurd rfl h.1
  | gotoLevel n => exact absurd rfl h.2
  | _ => rfl

/-- A finished level stays finished, and the robot where it is, whatever is done short of going to a level,
until an enemy is met; only searches are left open. Where an enemy is met, the level is not finished any
more, and the robot is back on its start. -/
theorem finished_stays {levels : List LevelSpec} {s : Session σ} {commands : List Command}
    (h : Reachable levels s) (finished : s.play.finished = true)
    (stays : ∀ c ∈ commands, c.kind ≠ .skipLevel ∧ c.kind ≠ .gotoLevel) :
    ((∀ v ∈ visits commands s, v.after.collided = false) →
        (after commands s).play.finished = true ∧
          (.searchAll ∉ commands → (after commands s).play.robot.position = s.play.robot.position)) ∧
      ∀ v ∈ visits commands s, v.after.collided = true →
        v.after.play.finished = false ∧ v.after.play.robot.position = s.spec.start := by
  have hstays : ∀ v ∈ visits commands s, v.before.destination? v.command = none := fun v hv =>
    destination_eq_none (stays v.command (command_mem_of_visits hv))
  refine ⟨fun clear => ⟨?_, fun search => ?_⟩, fun v hv meets => ?_⟩
  · exact (visits_keep (P := fun t => t.play.finished = true) finished
      fun v hv hbefore => execute_finished hbefore (hstays v hv) (clear v hv)).2
  · refine (visits_keep (P := fun t => t.play.finished = true ∧ t.play.robot.position = s.play.robot.position)
      ⟨finished, rfl⟩ fun v hv hbefore => ?_).2.2
    have hsearch : v.command ≠ .searchAll := fun he => search (he ▸ command_mem_of_visits hv)
    have hposition := execute_position hbefore.1 (hstays v hv) (clear v hv) hsearch
    exact ⟨execute_finished hbefore.1 (hstays v hv) (clear v hv), hposition.trans hbefore.2⟩
  -- the level that is reset is still the one that was finished
  · have hentry := (visits_keep (P := fun t => t.play.entry = s.play.entry) rfl fun v hv hbefore => by
      have hnone : ∀ i u, v.before.destination? v.command = some i → v.before.apart.load i ≠ (u, .ok ()) := by
        intro i u hsome
        rw [hstays v hv] at hsome
        cases hsome
      exact (execute_entry hnone).2.trans hbefore).1 v hv
    obtain ⟨hfinished, hposition⟩ := execute_reset (h.visits hv) meets
    refine ⟨hfinished, hposition.trans ?_⟩
    rw [spec, spec, hentry]

/-- The last courtyard with its coin grabbed. The enemy is beside the robot now. -/
def doneInCourtyard : Session Random.Twister := (inCourtyard.execute .grab).1

theorem doneInCourtyard_reachable : Reachable courtyards.levels doneInCourtyard :=
  .command (.start rfl inCourtyard_starts) .grab

theorem finished_stays_courtyard : doneInCourtyard.play.finished = true ∧
    (after [.println "done", .move .right] doneInCourtyard).play.finished = true ∧
    (after [.println "done", .move .right] doneInCourtyard).play.robot.position =
      doneInCourtyard.play.robot.position ∧
    (doneInCourtyard.execute .grab).1.collided = true ∧
    (doneInCourtyard.execute .grab).1.play.robot.position = doneInCourtyard.spec.start := by
  have finished : doneInCourtyard.play.finished = true := by decide +kernel
  have meets : (doneInCourtyard.execute .grab).1.collided = true := by decide +kernel
  have clear : ∀ v ∈ visits [.println "done", .move .right] doneInCourtyard, v.after.collided = false := by
    simp only [visits, List.forall_mem_cons]
    exact ⟨by decide +kernel, by decide +kernel, fun v hv => (List.not_mem_nil hv).elim⟩
  have stays : ∀ c ∈ [Command.println "done", .move .right], c.kind ≠ .skipLevel ∧ c.kind ≠ .gotoLevel := by
    decide
  have grabs : ∀ c ∈ [Command.grab], c.kind ≠ .skipLevel ∧ c.kind ≠ .gotoLevel := by decide
  obtain ⟨hstill, hplace⟩ := (finished_stays doneInCourtyard_reachable finished stays).1 clear
  have hreset := (finished_stays doneInCourtyard_reachable finished grabs).2 ⟨doneInCourtyard, .grab⟩
    List.mem_cons_self meets
  exact ⟨finished, hstill, hplace (by decide), meets, hreset.2⟩

/-- The first courtyard, where the enemy is asleep. -/
def inFirstCourtyard : Session Random.Twister :=
  ((start courtyards ⟨Vector.replicate _ 0, 0⟩ 0).1.toOption).get (by decide)

theorem inFirstCourtyard_starts :
    (start courtyards (⟨Vector.replicate _ 0, 0⟩ : Random.Twister) 0).1 = .ok inFirstCourtyard := rfl

/-- An encounter undoes that a level is finished, and a search moves the robot on a finished level. -/
theorem finished_left : (Reachable courtyards.levels doneInCourtyard ∧ doneInCourtyard.play.finished = true ∧
      (doneInCourtyard.execute .grab).1.play.finished = false) ∧
    Reachable courtyards.levels (inFirstCourtyard.execute .grab).1 ∧
      (inFirstCourtyard.execute .grab).1.play.finished = true ∧
      ((inFirstCourtyard.execute .grab).1.execute .searchAll).1.play.robot.position ≠
        (inFirstCourtyard.execute .grab).1.play.robot.position := by
  constructor
  · exact ⟨doneInCourtyard_reachable, by decide +kernel, by decide +kernel⟩
  · refine ⟨?_, by decide +kernel, by decide +kernel⟩
    exact .command (.start rfl inFirstCourtyard_starts) .grab

end Session

end ScriptedRobot
