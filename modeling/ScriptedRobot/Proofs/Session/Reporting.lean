import ScriptedRobot.Proofs.Session.Finished

/-!
# What a batch reports about completed levels

A batch compares, command by command, whether the level was finished before and is finished after; the
events tell when a level is completed. `Visit.completions` compares the two command by command: they agree
but for a command that leads from a finished level to one that is completed at once, which the batch
overlooks. `completion_reported` sums this up over a batch.
-/

namespace ScriptedRobot

/-- Does the event tell that a level was completed? -/
def Event.isCompletion : Event → Bool
  | levelComplete _ _ => true
  | _ => false

namespace Session

variable {σ : Type}

/-- How many levels the events tell to have been completed. -/
def completions (s : Session σ) : Nat := s.events.countP Event.isCompletion

theorem completions_report (s : Session σ) (e : Event) :
    (s.report e).completions = s.completions + e.isCompletion.toNat := by
  cases h : e.isCompletion <;> simp [completions, report, h]

/-- Completing a level is told, and nothing else is told as that. -/
theorem checkCompletion_completions (s : Session σ) : s.checkCompletion.completions =
    s.completions + (s.checkCompletion.play.finished && !s.play.finished).toNat := by
  unfold checkCompletion
  split
  · rename_i finished
    simp [finished]
  · rename_i unfinished
    simp only [Bool.not_eq_true] at unfinished
    split
    · have hfinish : s.finish.completions = s.completions + 1 :=
        completions_report (s.onPlay fun p => { p with finished := true }) (.levelComplete s.level s.spec.name)
      rw [hfinish, unfinished]
      rfl
    · simp

variable [WordSource σ]

theorem moveEnemies_completions (s : Session σ) : s.moveEnemies.completions = s.completions := by
  have hmoves : ∀ moves : List EnemyMove, (moves.map Event.enemyMoved).countP Event.isCompletion = 0 := by
    intro moves
    rw [List.countP_map]
    exact List.countP_false ▸ rfl
  simp only [completions, moveEnemies, onBoard, onPlay, List.countP_append, hmoves, Nat.add_zero]

theorem Step.completions_eq {d : Deed} {s t : Session σ} (h : Step s d t) (hd : d ≠ .finish) :
    t.completions = s.completions := by
  cases h with
  | finish _ _ => exact absurd rfl hd
  | collect found =>
    rename_i p i items
    obtain ⟨timeSlow, he⟩ := (s.onPlay fun play => { play with items := items }).applyItem_spec i
    rw [he]
    rfl
  | enemies _ _ _ => exact moveEnemies_completions s
  | tell names => exact completions_report s _
  | answer kind text => exact completions_report s _
  | _ => rfl

theorem Encounter.completions_eq {s t : Session σ} (h : Encounter s t) : t.completions = s.completions := by
  cases h with
  | walk _ _ _ _ => rfl
  | enemies _ _ _ => exact moveEnemies_completions s

theorem collide_completions (s : Session σ) : s.collide.completions = s.completions :=
  completions_report { s.reload with lastResult := Reply.collision.text, collided := true }
    (.collision s.reload.level)

theorem load_completions {s t : Session σ} {i : Int} {answer : Except EntryFailure Unit}
    (h : s.load i = (t, answer)) : t.completions = s.completions := by
  unfold load at h
  split at h <;> cases h <;> rfl

theorem load_unfinished {s t : Session σ} {i : Int} (h : s.load i = (t, .ok ())) :
    t.play.finished = false := by
  obtain ⟨-, -, -, -, -, hb⟩ := load_ok h
  rw [hb]
  rfl

end Session

namespace Visit

open Session

variable {σ : Type} [WordSource σ]

/-- Does the command lead from a finished level to one that is completed at once? -/
def overlooks (v : Visit σ) : Bool :=
  v.before.play.finished && v.reply?.isSome && (v.before.destination? v.command).isSome &&
    v.after.play.finished

/-- The events tell of every level whose completion the batch sees or overlooks, and of no other. -/
theorem completions_after (v : Visit σ) :
    v.after.completions = v.before.completions + v.celebrates.toNat + v.overlooks.toNat := by
  have heffect := execute_effect v.before v.command
  rcases he : v.before.execute v.command with ⟨t, outcome⟩
  have hafter : v.after = t := by rw [after, he]
  have hreply : v.reply? = outcome.toOption := by rw [reply?, he]
  have hapart : v.before.apart.completions = v.before.completions := rfl
  have hfinished : v.before.apart.play.finished = v.before.play.finished := rfl
  rw [celebrates, overlooks, hreply, hafter]
  rw [he] at heffect
  cases heffect with
  | refused refused =>
    have hstays : v.before.destination? v.command = none := by
      cases hd : v.before.destination? v.command with
      | none => rfl
      | some i => exact absurd (allowed_of_destination hd) refused
    rw [completions_report, hapart, hstays]
    simp [Event.isCompletion, report, hfinished]
  | failed goes load =>
    obtain ⟨-, -, hplay⟩ := load_error load
    rw [load_completions load, hapart, hplay, hfinished]
    simp [Except.toOption]
  | @entered _ u _ goes load =>
    -- a level that has just been entered is not finished, whatever the one before it was
    have hclear : u.checkCompletion.collided = false :=
      (checkCompletion_steps u).collided.trans (load_collided load)
    rw [completions_report, checkCompletion_completions, load_completions load, hapart, goes]
    simp only [report, hclear, load_unfinished load, Event.isCompletion, Except.toOption]
    cases v.before.play.finished <;> cases u.checkCompletion.play.finished <;> rfl
  | @settled u _ _ stays steps =>
    have hclear : u.checkCompletion.collided = false :=
      (checkCompletion_steps u).collided.trans steps.steps.collided
    have hcompletions := steps.unchanged completions fun hd hstep =>
      hstep.completions_eq fun hfinish => v.command.finish_not_mem_deeds (hfinish ▸ hd)
    have hsame := steps.unchanged (·.play.finished) fun hd hstep =>
      hstep.finished_eq fun hfinish => v.command.finish_not_mem_deeds (hfinish ▸ hd)
    rw [completions_report, checkCompletion_completions, hcompletions, hsame, hapart, stays]
    simp [report, hclear, Event.isCompletion, hfinished]
  | @met u w _ stays steps met =>
    have hcompletions := steps.unchanged completions fun hd hstep =>
      hstep.completions_eq fun hfinish => v.command.finish_not_mem_deeds (hfinish ▸ hd)
    have hcollided : (w.collide.report (.executed v.command.kind Reply.collision.text)).collided = true := rfl
    rw [completions_report, collide_completions, met.completions_eq, hcompletions, hapart, stays, hcollided]
    simp [Event.isCompletion]

end Visit

namespace Session

variable {σ : Type} [WordSource σ]

/-- Over some commands the events tell of every completion that is seen or overlooked. -/
theorem completions_run (commands : List Command) (s : Session σ) :
    (Session.after commands s).completions = s.completions +
      ((visits commands s).flatMap Visit.achievements).length + (visits commands s).countP Visit.overlooks := by
  induction commands generalizing s with
  | nil => rfl
  | cons c rest ih =>
    have hfirst : (s.execute c).1.completions = s.completions + (Visit.mk s c).celebrates.toNat +
        (Visit.mk s c).overlooks.toNat := (Visit.mk s c).completions_after
    have hachievements : (Visit.mk s c).achievements.length = (Visit.mk s c).celebrates.toNat := by
      unfold Visit.achievements
      cases (Visit.mk s c).celebrates <;> rfl
    have hrest := ih (s.execute c).1
    have hafter : Session.after (c :: rest) s = Session.after rest (s.execute c).1 := rfl
    have hoverlooks : ∀ b : Bool, (if b = true then 1 else 0) = b.toNat := by decide
    rw [hafter, hrest, visits, List.flatMap_cons, List.length_append, List.countP_cons, hachievements,
      hoverlooks]
    omega

/-- A batch reports the completion of a level, and says so in its results, exactly if one of its commands
leaves a level finished where it found one unfinished. The events tell of these completions, and besides of
every level that was completed as soon as it was entered from a finished one. -/
theorem completion_reported {s t : Session σ} {code : String} {r : BatchReport}
    (ran : s.runScript code = (t, .ok r)) :
    r.results = (if r.commands = [] then [noCallsMessage] else (s.executions r).flatMap Visit.results) ∧
      (r.completed = true ↔ (s.executions r).flatMap Visit.achievements ≠ []) ∧
      t.completions = ((s.executions r).flatMap Visit.achievements).length +
        (s.executions r).countP Visit.overlooks := by
  obtain ⟨-, -, hcompleted, hresults⟩ := runScript_report ran
  refine ⟨hresults, ?_, ?_⟩
  · simp [hcompleted, List.flatMap_eq_nil_iff, Visit.achievements]
  -- the events are those of the commands, and perhaps a note that the batch was halted
  · obtain ⟨halts, hhalts, rfl⟩ := runScript_session ran
    have hnone : halts.countP Event.isCompletion = 0 := by
      rw [List.countP_eq_zero]
      intro e he
      obtain ⟨text, rfl⟩ := hhalts e he
      exact Bool.false_ne_true
    have hrun := completions_run (course r.commands s.opened) s.opened
    have hopened : s.opened.completions = 0 := rfl
    rw [hopened, Nat.zero_add] at hrun
    rw [executions_eq ran, ← hrun]
    simp only [completions, List.countP_append, hnone, Nat.add_zero]

/-- A closet: a single tile, explored as soon as it is entered. -/
def closet : LevelSpec where
  name := "Closet"
  width := 1
  height := 1
  start := ⟨0, 0⟩
  width_pos := by decide
  height_pos := by decide
  placed_inside := by decide

/-- Two closets. -/
def closets : Campaign where
  levels := List.replicate 2 closet
  loader := Loader.ofTexts []

/-- A session that starts in the first closet. -/
def inCloset : Session Random.Twister :=
  ((start closets ⟨Vector.replicate _ 0, 0⟩ 0).1.toOption).get (by decide)

theorem inCloset_starts :
    (start closets (⟨Vector.replicate _ 0, 0⟩ : Random.Twister) 0).1 = .ok inCloset := rfl

/-- What a batch reports that completes the first closet and goes on to the second. -/
def closetReport : BatchReport where
  commands := [.println "x", .skipLevel]
  results := ["x", "Level completed!", "Skipped to level 2!"]
  executed := 2
  completed := true

theorem completion_reported_closet :
    ∃ t, inCloset.runScript "println!(\"x\")\nskip_level()" = (t, .ok closetReport) ∧
      ((inCloset.executions closetReport).flatMap Visit.achievements).length = 1 ∧
      t.completions = 1 + (inCloset.executions closetReport).countP Visit.overlooks ∧
      (inCloset.executions closetReport).countP Visit.overlooks = 1 := by
  have ran : inCloset.runScript "println!(\"x\")\nskip_level()" = (_, .ok closetReport) :=
    Prod.ext rfl (by decide +kernel)
  have hachievements : ((inCloset.executions closetReport).flatMap Visit.achievements).length = 1 := by
    decide +kernel
  have htold := (completion_reported ran).2.2
  rw [hachievements] at htold
  exact ⟨_, ran, hachievements, htold, by decide +kernel⟩

/-- From a finished closet into the next one: the events tell that it was completed, the report does not. -/
theorem completion_unreported :
    Reachable closets.levels (inCloset.runScript "println!(\"x\")").1 ∧
      ∃ t r, (inCloset.runScript "println!(\"x\")").1.runScript "skip_level()" = (t, .ok r) ∧
        0 < t.completions ∧ r.completed = false ∧ r.results = ["Skipped to level 2!"] := by
  have ran : (inCloset.runScript "println!(\"x\")").1.runScript "skip_level()" = (_, .ok
      { commands := [.skipLevel]
        results := ["Skipped to level 2!"]
        executed := 1 }) := Prod.ext rfl (by decide +kernel)
  refine ⟨.runScript (.start rfl inCloset_starts) _, _, _, ran, by decide +kernel, rfl, rfl⟩

end Session

end ScriptedRobot
