import Mathlib
import ScriptedRobot.Proofs.Session.Entering

/-!
# Levels that cannot be entered

A command that goes to a level fails with what goes wrong first with the files of that level, and no other command
fails (`failure?_execute`). All of that goes wrong before anything about the session is replaced, so the player is left
where the command was given (`failed_load_intact`).
-/

namespace ScriptedRobot

theorem eq_error_iff {ε α : Type} {answer : Except ε α} {e : ε} : answer = .error e ↔ failure? answer = some e := by
  cases answer <;> simp [failure?]

namespace Session

variable {σ : Type} [WordSource σ] {levels : List LevelSpec} {s t : Session σ}

/-- A level that does not load has drawn random numbers and left notes, and that is all. -/
theorem load_failed {i : Int} {failure : EntryFailure} (h : s.load i = (t, .error failure)) :
    ∃ g notes, t = { s with rng := g, log := s.log ++ notes } := by
  unfold load at h
  split at h
  · cases h
    exact ⟨_, _, rfl⟩
  · cases h

theorem failure?_load (i : Int) :
    failure? (s.load i).2 = failure? (s.campaign.enter i (some s.play.robot) s.credits s.rng).1 := by
  unfold load
  rcases s.campaign.enter i (some s.play.robot) s.credits s.rng with ⟨failure | play, g, notes⟩ <;> rfl

/-- A command fails with what goes wrong with loading the level that it goes to. -/
theorem failure?_execute (c : Command) :
    failure? (s.execute c).2 = (s.destination? c).bind fun i => failure? (s.apart.load i).2 := by
  have heffect := execute_effect s c
  generalize s.execute c = outcome at heffect ⊢
  cases heffect with
  | refused refused =>
    cases goes : s.destination? c with
    | none => rfl
    | some i => exact absurd (allowed_of_destination goes) refused
  | failed goes load =>
    rw [goes, Option.bind_some, load]
    rfl
  | entered goes load =>
    rw [goes, Option.bind_some, load]
    rfl
  | settled _ stays _ =>
    rw [stays]
    rfl
  | met _ stays _ _ =>
    rw [stays]
    rfl

/-- A level that cannot be entered leaves the session as it was. A command fails exactly if the loader gives up on a
file that is read for the level that it goes to, and then with what the loader says of the first such file. The session
after it is the one before, but for the source of random numbers, the flag for a meeting, which is taken down, and what
has been noted in the log. -/
theorem failed_load_intact (h : Reachable levels s) (c : Command) :
    (∀ failure, (s.execute c).2 = .error failure ↔
        ∃ i spec fault, s.destination? c = some i ∧ s.campaign.level? i = some spec ∧
          s.campaign.loader.fault? (s.campaign.filesRead (s.play.robot.hasItem Item.scannerName) spec) = some fault ∧
          failure = .resource fault) ∧
      ∀ failure, (s.execute c).2 = .error failure →
        ∃ g notes, (s.execute c).1 = { s with rng := g, collided := false, log := s.log ++ notes } := by
  refine ⟨fun failure => ?_, fun failure hfailed => ?_⟩
  · rw [eq_error_iff, failure?_execute]
    cases goes : s.destination? c with
    | none => simp
    | some i =>
      obtain ⟨spec, hspec⟩ := Campaign.level?_eq_some_iff.2 (hasLevel_of_destination h.grounded.hasLevel goes)
      have hload : failure? (s.apart.load i).2 = (s.campaign.loader.fault?
          (s.campaign.filesRead (s.play.robot.hasItem Item.scannerName) spec)).map .resource :=
        (failure?_load i).trans (Campaign.enter_fails hspec (some s.play.robot) s.credits s.rng)
      rw [Option.bind_some, hload, Option.map_eq_some_iff]
      constructor
      · rintro ⟨fault, hfault, rfl⟩
        exact ⟨i, spec, fault, rfl, hspec, hfault, rfl⟩
      · rintro ⟨j, other, fault, hj, hother, hfault, rfl⟩
        cases hj
        rw [hspec] at hother
        cases hother
        exact ⟨fault, hfault, rfl⟩
  · have heffect := execute_effect s c
    generalize s.execute c = outcome at heffect hfailed ⊢
    cases heffect with
    | failed _ load =>
      obtain ⟨g, notes, he⟩ := load_failed load
      exact ⟨g, notes, he⟩
    | _ => cases hfailed

/-! ### A cellar whose lamp is out of reach -/

/-- A cellar with a lamp that has a file. -/
def cellar : LevelSpec where
  name := "Cellar"
  width := 1
  height := 1
  start := ⟨0, 0⟩
  items := [{ name := "lamp", position := some ⟨0, 0⟩, file := some "items/lamp.rs" }]
  width_pos := Int.one_pos
  height_pos := Int.one_pos
  placed_inside := by decide

/-- A courtyard above the cellar, with a loader that always gives up. -/
def cellarHouse : Campaign := ⟨[courtyard, cellar], fun _ => .error (.broken "timed out"), none⟩

/-- A session that starts in the courtyard above the cellar. -/
def aboveCellar : Session Random.Twister :=
  ((start cellarHouse ⟨Vector.replicate _ 0, 0⟩ 0).1.toOption).get (by decide)

theorem aboveCellar_starts :
    (start cellarHouse (⟨Vector.replicate _ 0, 0⟩ : Random.Twister) 0).1 = .ok aboveCellar := rfl

/-- The cellar cannot be entered, and the robot stays in the courtyard with the coin that it has taken. -/
theorem failed_load_intact_cellar : ∃ s g notes, s = (aboveCellar.execute .grab).1 ∧
    (s.execute .skipLevel).2 = .error (.resource (.broken "timed out")) ∧
    (s.execute .skipLevel).1 = { s with rng := g, collided := false, log := s.log ++ notes } ∧
    "coin" ∈ (s.execute .skipLevel).1.play.robot.inventory := by
  have taken : Reachable cellarHouse.levels (aboveCellar.execute .grab).1 :=
    (Reachable.start rfl aboveCellar_starts).command .grab
  have carried : "coin" ∈ (aboveCellar.execute .grab).1.play.robot.inventory := by decide +kernel
  obtain ⟨fails, intact⟩ := failed_load_intact taken .skipLevel
  have failed := (fails (.resource (.broken "timed out"))).2
    ⟨1, cellar, .broken "timed out", by decide +kernel, rfl, by decide +kernel, rfl⟩
  obtain ⟨g, notes, he⟩ := intact _ failed
  refine ⟨_, g, notes, rfl, failed, he, ?_⟩
  rw [he]
  exact carried

end Session

end ScriptedRobot
