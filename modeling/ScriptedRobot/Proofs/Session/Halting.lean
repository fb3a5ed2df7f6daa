import ScriptedRobot.Proofs.Session.Course
import ScriptedRobot.Proofs.Session.Obstacle

/-!
# What halts a batch

A batch is halted exactly if its last command met an obstacle, or spoke of one: whether an answer tells of
an obstacle is read off its words, and some answers repeat words of the player's. A text that speaks of
something else never keeps the commands after it from being executed.
-/

namespace ScriptedRobot

variable {σ : Type} [WordSource σ]

open Session

theorem Visit.not_obstructed_of_failed {v : Visit σ} {t : Session σ} {failure : EntryFailure}
    (h : v.before.execute v.command = (t, .error failure)) :
    ¬ v.before.Obstructed v.command ∧ v.command.spoken? = none := by
  have heffect := execute_effect v.before v.command
  rw [h] at heffect
  cases heffect with
  -- only a command that goes to a level can fail
  | failed goes _ =>
    cases hc : v.command with
    | skipLevel => exact ⟨id, rfl⟩
    | gotoLevel n => exact ⟨id, rfl⟩
    | _ =>
      rw [hc] at goes
      cases goes

/-- A command halts the batch if it meets an obstacle, or speaks of one, and no enemy comes between. -/
theorem Visit.halts_iff {v : Visit σ} (hv : v.before.WellFormed) : v.halts = true ↔
    v.after.collided = false ∧ (v.before.Obstructed v.command ∨
      ∃ text, v.command.spoken? = some text ∧ Reply.speaksOfObstacle text = true) := by
  rcases he : v.before.execute v.command with ⟨t, failure | reply⟩
  · obtain ⟨hobstructed, hspoken⟩ := v.not_obstructed_of_failed he
    simp [Visit.halts, Visit.reply?, he, Except.toOption, hobstructed, hspoken]
  · have hreply := execute_haltsBatch hv he
    simp only [Visit.halts, Visit.reply?, Visit.after, he, Except.toOption, Option.any_some, Bool.and_eq_true,
      Bool.not_eq_true', hreply]
    exact ⟨And.right, fun h => ⟨h.1, h⟩⟩

/-- Printing is always answered with the text, and meets no enemy. -/
theorem Session.execute_prints {s : Session σ} {c : Command} {text : String}
    (h : c = .println text ∨ c = .eprintln text) :
    ∃ t reply, s.execute c = (t, .ok reply) ∧ t.collided = false ∧ reply.quoted? = some text := by
  have allowed : c.kind ∈ s.availableFunctions := by
    rcases h with rfl | rfl <;> simp [Command.kind, availableFunctions, Robot.availableFunctions]
  have clear : ∀ u : Session σ, u.collided = false → ∀ kind text,
      (u.checkCompletion.report (.executed kind text)).collided = false := by
    intro u hu kind text
    exact (checkCompletion_steps u).collided.trans hu
  rcases h with rfl | rfl
  · exact ⟨_, _, execute_answered (r := .printed text) allowed rfl rfl, clear _ rfl _ _, rfl⟩
  · exact ⟨_, _, execute_answered (r := .errorPrinted text) allowed rfl rfl, clear _ rfl _ _, rfl⟩

/-- Printing a text that does not speak of an obstacle lets the batch go on. -/
theorem Visit.goesOn_of_prints {v : Visit σ} {text : String}
    (h : v.command = .println text ∨ v.command = .eprintln text)
    (other : Reply.speaksOfObstacle text = false) : v.endsBatch = false := by
  obtain ⟨t, reply, he, clear, hquoted⟩ := v.before.execute_prints h
  have hkind : v.command.kind ≠ .panic := by
    rcases h with hc | hc <;> simp [hc, Command.kind]
  have hhalts : reply.haltsBatch = false := by
    rw [Reply.haltsBatch_of_quoted hquoted, other]
  simp [Visit.endsBatch, Visit.halts, Visit.reply?, Visit.after, he, Except.toOption, clear, hhalts, hkind]

namespace Session

/-- A batch is halted exactly if its last command met an obstacle, or spoke of one, and no enemy was met. A
text that does not speak of an obstacle may always be printed: the command after it is executed. -/
theorem halted_iff_obstructed {levels : List LevelSpec} {s t : Session σ} {code : String} {r : BatchReport}
    (h : Reachable levels s) (ran : s.runScript code = (t, .ok r)) :
    (r.halted = true ↔ ∃ v, (s.executions r).getLast? = some v ∧ v.after.collided = false ∧
        (v.before.Obstructed v.command ∨
          ∃ text, v.command.spoken? = some text ∧ Reply.speaksOfObstacle text = true)) ∧
      ∀ (i : Nat) (text : String),
        r.commands[i]? = some (.println text) ∨ r.commands[i]? = some (.eprintln text) →
        Reply.speaksOfObstacle text = false → i < r.executed → i + 1 < r.commands.length →
        i + 1 < r.executed := by
  have hopened : Reachable levels s.opened := h.records rfl rfl rfl
  have hexecutions := executions_eq ran
  refine ⟨?_, ?_⟩
  -- whichever visit halts the batch is the last one
  · rw [(runScript_report ran).1, List.any_eq_true]
    constructor
    · rintro ⟨v, hv, halts⟩
      have hreachable := hopened.visits hv
      have hlast := getLast?_of_endsBatch (hexecutions ▸ hv) (by simp [Visit.endsBatch, halts])
      exact ⟨v, hexecutions ▸ hlast, (Visit.halts_iff hreachable.wellFormed).1 halts⟩
    · rintro ⟨v, hlast, hmet⟩
      have hv := List.mem_of_getLast? hlast
      exact ⟨v, hv, (Visit.halts_iff (hopened.visits hv).wellFormed).2 hmet⟩
  · intro i text hprints other hi more
    obtain ⟨c, hc, hprints⟩ : ∃ c, r.commands[i]? = some c ∧ (c = .println text ∨ c = .eprintln text) := by
      rcases hprints with hc | hc
      · exact ⟨_, hc, .inl rfl⟩
      · exact ⟨_, hc, .inr rfl⟩
    have hvisit : (s.executions r)[i]? = some ⟨after ((r.commands.take r.executed).take i) s.opened, c⟩ := by
      rw [executions, visits_getElem?, List.getElem?_take_of_lt hi, hc]
      rfl
    rw [executed_eq ran]
    exact course_goesOn (hexecutions ▸ hvisit) (Visit.goesOn_of_prints hprints other) more

/-- In the courtyard a script greets, goes off the board and would grab. -/
theorem halted_iff_obstructed_courtyard :
    ∃ t r, inCourtyard.runScript "println!(\"Hello\")\nmove(up)\ngrab()" = (t, .ok r) ∧ r.halted = true ∧
      (∃ v, (inCourtyard.executions r).getLast? = some v ∧ v.after.collided = false ∧
        (v.before.Obstructed v.command ∨
          ∃ text, v.command.spoken? = some text ∧ Reply.speaksOfObstacle text = true)) ∧
      Reply.speaksOfObstacle "Hello" = false ∧ 0 + 1 < r.executed := by
  have ran : inCourtyard.runScript "println!(\"Hello\")\nmove(up)\ngrab()" = (_, .ok
      { commands := [.println "Hello", .move .up, .grab]
        results := ["Hello", Reply.blocked.text, haltMessage]
        executed := 2
        halted := true }) := Prod.ext rfl (by decide +kernel)
  have other : Reply.speaksOfObstacle "Hello" = false := by decide
  obtain ⟨hhalted, hprints⟩ := halted_iff_obstructed (.start rfl inCourtyard_starts) ran
  exact ⟨_, _, ran, rfl, hhalted.1 rfl, other, hprints 0 "Hello" (.inl rfl) other (by decide) (by decide)⟩

/-- A text that speaks of an obstacle halts the batch where there is none, and the command after it is not
executed. -/
theorem halted_by_words : Reachable courtyards.levels inCourtyard ∧
    ∃ t r, inCourtyard.runScript "println!(\"Search blocked\")\ngrab()" = (t, .ok r) ∧ r.halted = true ∧
      r.executed < r.commands.length ∧
      ¬ ∃ v, (inCourtyard.executions r).getLast? = some v ∧ v.before.Obstructed v.command := by
  have ran : inCourtyard.runScript "println!(\"Search blocked\")\ngrab()" = (_, .ok
      { commands := [.println "Search blocked", .grab]
        results := ["Search blocked", haltMessage]
        executed := 1
        halted := true }) := Prod.ext rfl (by decide +kernel)
  refine ⟨.start rfl inCourtyard_starts, _, _, ran, rfl, by decide, ?_⟩
  rintro ⟨v, hlast, hobstructed⟩
  cases hlast
  exact hobstructed

end Session

end ScriptedRobot
