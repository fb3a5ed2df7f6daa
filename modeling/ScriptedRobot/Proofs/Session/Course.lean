import ScriptedRobot.Proofs.Session.Reachable

/-!
# The course of a batch

A batch executes its commands one after the other, each where the one before it has led: `visits` lists
them with the sessions that find them, and `course` tells how far a batch gets with them. What it reports
is what its visits contribute one by one (`runCommands_report`), and only its last visit can be one that
ends the batch (`getLast?_of_endsBatch`).
-/

namespace ScriptedRobot

/-- A command and the session that finds it. -/
structure Visit (σ : Type) where
  /-- The session before the command. -/
  before : Session σ
  /-- The command. -/
  command : Command

variable {σ : Type} [WordSource σ]

namespace Visit

/-- The session after the command. -/
def after (v : Visit σ) : Session σ := (v.before.execute v.command).1

/-- The answer to the command, if there is one. -/
def reply? (v : Visit σ) : Option Reply := (v.before.execute v.command).2.toOption

/-- Does the command halt the batch? -/
def halts (v : Visit σ) : Bool := !v.after.collided && v.reply?.any Reply.haltsBatch

/-- Does the batch end with the command: because it fails, meets an enemy, halts the batch or gives up? -/
def endsBatch (v : Visit σ) : Bool :=
  v.reply?.isNone || v.after.collided || v.halts || v.command.kind == .panic

/-- Does the batch see the level completed by the command? -/
def celebrates (v : Visit σ) : Bool :=
  !v.after.collided && v.after.play.finished && !v.before.play.finished

/-- What the batch says about the level that the command completes. -/
def achievements (v : Visit σ) : List String := if v.celebrates then [v.after.achievement] else []

/-- What the batch adds to its results for the command. -/
def results (v : Visit σ) : List String :=
  v.reply?.toList.map Reply.text ++ v.achievements ++ if v.halts then [Session.haltMessage] else []

/-- What the batch leads to if it ends with the command. -/
def ending (v : Visit σ) : Session σ :=
  match v.reply? with
  | some reply => if v.halts then v.after.report (.halted reply.text) else v.after
  | none => v.after

end Visit

/-- The report after one more command. -/
def BatchReport.record (r : BatchReport) (v : Visit σ) : BatchReport :=
  { commands := r.commands
    results := r.results ++ v.results
    executed := r.executed + 1
    halted := r.halted || v.halts
    collided := r.collided || v.after.collided
    completed := r.completed || v.celebrates }

/-- What a report comes to that records some commands. -/
theorem BatchReport.foldl_record (vs : List (Visit σ)) (r : BatchReport) : vs.foldl record r =
    { commands := r.commands
      results := r.results ++ vs.flatMap Visit.results
      executed := r.executed + vs.length
      halted := r.halted || vs.any Visit.halts
      collided := r.collided || vs.any (·.after.collided)
      completed := r.completed || vs.any Visit.celebrates } := by
  induction vs generalizing r with
  | nil => simp
  | cons v vs ih =>
    rw [List.foldl_cons, ih]
    simp [record, Bool.or_assoc, Nat.add_assoc, Nat.add_comm 1]

namespace Session

/-- The commands with the sessions that find them when they are executed one after the other. -/
def visits : List Command → Session σ → List (Visit σ)
  | [], _ => []
  | c :: rest, s => ⟨s, c⟩ :: visits rest (s.execute c).1

/-- What commands lead to that are executed one after the other. -/
def after (commands : List Command) (s : Session σ) : Session σ :=
  commands.foldl (fun s c => (s.execute c).1) s

/-- The commands of a batch up to the first one that ends it. -/
def course : List Command → Session σ → List Command
  | [], _ => []
  | c :: rest, s => c :: if (Visit.mk s c).endsBatch then [] else course rest (s.execute c).1

/-! ## One command of a batch -/

/-- After an encounter the answer says so. -/
theorem reply_of_collided {s t : Session σ} {c : Command} {r : Reply} (h : s.execute c = (t, .ok r))
    (meets : t.collided = true) : r = .collision := by
  rcases execute_ok h with ⟨-, clear, -⟩ | ⟨-, rfl⟩ | ⟨-, clear, -⟩
  · rw [clear] at meets
    cases meets
  · rfl
  · rw [clear] at meets
    cases meets

theorem record_met (r : BatchReport) {v : Visit σ} {reply : Reply} (answered : v.reply? = some reply)
    (meets : v.after.collided = true) :
    r.record v = { r with executed := r.executed + 1, collided := true }.add reply.text := by
  have hhalts : v.halts = false := by simp [Visit.halts, meets]
  have hcelebrates : v.celebrates = false := by simp [Visit.celebrates, meets]
  simp [BatchReport.record, BatchReport.add, Visit.results, Visit.achievements, answered, meets, hhalts,
    hcelebrates]

theorem record_clear (r : BatchReport) {v : Visit σ} {reply : Reply} (answered : v.reply? = some reply)
    (clear : v.after.collided = false) :
    r.record v =
      let answer := { r with executed := r.executed + 1 }.add reply.text
      let told := if v.celebrates then { answer with completed := true }.add v.after.achievement else answer
      if v.halts then { told with halted := true }.add haltMessage else told := by
  cases hcelebrates : v.celebrates <;> cases hhalts : v.halts <;>
    simp [BatchReport.record, BatchReport.add, Visit.results, Visit.achievements, answered, clear, hhalts,
      hcelebrates]

/-- A command that is answered is recorded, and the batch ends there or goes on. -/
theorem runCommands_cons {c : Command} {rest : List Command} {s t : Session σ} {r : BatchReport}
    {reply : Reply} (h : s.execute c = (t, .ok reply)) : runCommands (c :: rest) s r =
      if (Visit.mk s c).endsBatch then ((Visit.mk s c).ending, .ok (r.record (Visit.mk s c)))
      else runCommands rest t (r.record (Visit.mk s c)) := by
  have hreply : (Visit.mk s c).reply? = some reply := by simp [Visit.reply?, h, Except.toOption]
  have hafter : (Visit.mk s c).after = t := by simp [Visit.after, h]
  -- the visit stays folded, so that what is recorded of it reads the same on both sides
  generalize hv : Visit.mk s c = v at hreply hafter
  have hbefore : v.before = s := by rw [← hv]
  have hcommand : v.command = c := by rw [← hv]
  simp only [runCommands, h]
  cases meets : t.collided with
  | true =>
    have hmeets : v.after.collided = true := by rw [hafter, meets]
    have hcollision : reply = .collision := reply_of_collided h meets
    have hends : v.endsBatch = true := by simp [Visit.endsBatch, hmeets]
    have hhalts : v.halts = false := by simp [Visit.halts, hmeets]
    rw [if_pos rfl, if_pos hends, record_met r hreply hmeets, Visit.ending, hreply, hcollision]
    simp [hhalts, hafter]
  | false =>
    have hclear : v.after.collided = false := by rw [hafter, meets]
    have hhalts : v.halts = reply.haltsBatch := by simp [Visit.halts, hclear, hreply]
    have hends : v.endsBatch = (reply.haltsBatch || c.kind == .panic) := by
      simp [Visit.endsBatch, hreply, hclear, hhalts, hcommand]
    have hcelebrates : v.celebrates = (t.play.finished && !s.play.finished) := by
      simp [Visit.celebrates, hafter, meets, hbefore]
    rw [record_clear r hreply hclear, hends, Visit.ending, hreply, hhalts, hcelebrates, hafter]
    cases halts : reply.haltsBatch with
    | true => simp
    | false => by_cases gives : c.kind = .panic <;> simp [gives]

/-- A batch that gets through either ends with its first command or goes on after it. -/
theorem runCommands_ok {c : Command} {rest : List Command} {s t : Session σ} {r r' : BatchReport}
    (h : runCommands (c :: rest) s r = (t, .ok r')) :
    (Visit.mk s c).endsBatch = true ∧ t = (Visit.mk s c).ending ∧ r' = r.record (Visit.mk s c) ∨
      (Visit.mk s c).endsBatch = false ∧
        runCommands rest (s.execute c).1 (r.record (Visit.mk s c)) = (t, .ok r') := by
  rcases he : s.execute c with ⟨u, failure | reply⟩
  · simp only [runCommands, he] at h
    cases h
  · rw [runCommands_cons he] at h
    cases ends : (Visit.mk s c).endsBatch with
    | true =>
      rw [ends, if_pos rfl] at h
      cases h
      exact .inl ⟨rfl, rfl, rfl⟩
    | false =>
      rw [ends, if_neg Bool.false_ne_true] at h
      exact .inr ⟨rfl, h⟩

theorem ending_eq (v : Visit σ) : ∃ halts : List Event, (∀ e ∈ halts, ∃ text, e = .halted text) ∧
    v.ending = { v.after with events := v.after.events ++ halts } := by
  have hnone : v.after = { v.after with events := v.after.events ++ [] } := by simp
  unfold Visit.ending
  split
  · rename_i reply _
    split
    · exact ⟨[.halted reply.text], by simp, rfl⟩
    · exact ⟨[], by simp, hnone⟩
  · exact ⟨[], by simp, hnone⟩

/-! ## The whole batch -/

/-- What a batch reports is what its visits contribute one by one. -/
theorem runCommands_report {commands : List Command} {s t : Session σ} {r r' : BatchReport}
    (h : runCommands commands s r = (t, .ok r')) :
    r' = (visits (course commands s) s).foldl BatchReport.record r := by
  induction commands generalizing s r with
  | nil =>
    cases h
    rfl
  | cons c rest ih =>
    rcases runCommands_ok h with ⟨ends, -, rfl⟩ | ⟨goesOn, hrest⟩
    · rw [course, if_pos ends]
      rfl
    · rw [course, goesOn, if_neg Bool.false_ne_true, visits, List.foldl_cons]
      exact ih hrest

/-- A batch leads where the commands of its course lead, but for a note that it was halted. -/
theorem runCommands_session {commands : List Command} {s t : Session σ} {r r' : BatchReport}
    (h : runCommands commands s r = (t, .ok r')) :
    ∃ halts : List Event, (∀ e ∈ halts, ∃ text, e = .halted text) ∧
      t = { after (course commands s) s with events := (after (course commands s) s).events ++ halts } := by
  induction commands generalizing s r with
  | nil =>
    cases h
    exact ⟨[], by simp, by simp [course, after]⟩
  | cons c rest ih =>
    rcases runCommands_ok h with ⟨ends, rfl, -⟩ | ⟨goesOn, hrest⟩
    · rw [course, if_pos ends]
      exact ending_eq ⟨s, c⟩
    · rw [course, goesOn, if_neg Bool.false_ne_true, after, List.foldl_cons]
      exact ih hrest

theorem course_initial (commands : List Command) (s : Session σ) : course commands s <+: commands := by
  induction commands generalizing s with
  | nil => exact List.prefix_rfl
  | cons c rest ih =>
    rw [course]
    split
    · exact List.cons_prefix_cons.2 ⟨rfl, List.nil_prefix⟩
    · exact List.cons_prefix_cons.2 ⟨rfl, ih _⟩

@[simp] theorem visits_length (commands : List Command) (s : Session σ) :
    (visits commands s).length = commands.length := by
  induction commands generalizing s with
  | nil => rfl
  | cons c rest ih => rw [visits, List.length_cons, ih, List.length_cons]

theorem visits_getElem? (commands : List Command) (s : Session σ) (i : Nat) :
    (visits commands s)[i]? = commands[i]?.map fun c => ⟨after (commands.take i) s, c⟩ := by
  induction commands generalizing s i with
  | nil => rfl
  | cons c rest ih =>
    cases i with
    | zero => rfl
    | succ i =>
      rw [visits, List.getElem?_cons_succ, ih, List.getElem?_cons_succ, List.take_succ_cons]
      rfl

/-- Only the last visit of a batch can end it. -/
theorem getLast?_of_endsBatch {commands : List Command} {s : Session σ} {v : Visit σ}
    (hv : v ∈ visits (course commands s) s) (ends : v.endsBatch = true) :
    (visits (course commands s) s).getLast? = some v := by
  induction commands generalizing s with
  | nil => cases hv
  | cons c rest ih =>
    rw [course] at hv ⊢
    split at hv
    · rename_i first
      rw [if_pos first]
      rw [visits, visits, List.mem_singleton] at hv
      rw [hv]
      rfl
    · rename_i goesOn
      rw [if_neg goesOn]
      rw [visits, List.mem_cons] at hv
      rcases hv with rfl | hv
      · exact absurd ends goesOn
      · rw [visits, List.getLast?_cons, ih hv]
        rfl

/-- After a command that does not end the batch the next one is executed, if there is one. -/
theorem course_goesOn {commands : List Command} {s : Session σ} {v : Visit σ} {i : Nat}
    (hv : (visits (course commands s) s)[i]? = some v) (goesOn : v.endsBatch = false)
    (more : i + 1 < commands.length) : i + 1 < (course commands s).length := by
  induction commands generalizing s i with
  | nil => cases more
  | cons c rest ih =>
    rw [course] at hv ⊢
    split at hv
    · rename_i first
      cases i with
      | zero =>
        cases hv
        rw [goesOn] at first
        cases first
      | succ i => cases hv
    · rename_i further
      rw [if_neg further, List.length_cons, Nat.add_lt_add_iff_right]
      cases i with
      | zero =>
        cases rest with
        | nil => exact absurd more (Nat.lt_irrefl _)
        | cons d rest => exact Nat.succ_pos _
      | succ i => exact ih hv (Nat.lt_of_succ_lt_succ more)

theorem command_mem_of_visits {commands : List Command} {s : Session σ} {v : Visit σ}
    (hv : v ∈ visits commands s) : v.command ∈ commands := by
  induction commands generalizing s with
  | nil => cases hv
  | cons c rest ih =>
    rw [visits, List.mem_cons] at hv
    rcases hv with rfl | hv
    · exact List.mem_cons_self
    · exact List.mem_cons_of_mem _ (ih hv)

/-- What each of the commands keeps holds all the way. -/
theorem visits_keep {P : Session σ → Prop} {commands : List Command} {s : Session σ} (hs : P s)
    (keeps : ∀ v ∈ visits commands s, P v.before → P v.after) :
    (∀ v ∈ visits commands s, P v.before) ∧ P (after commands s) := by
  induction commands generalizing s with
  | nil => exact ⟨fun v hv => (List.not_mem_nil hv).elim, hs⟩
  | cons c rest ih =>
    rw [visits, List.forall_mem_cons] at keeps
    obtain ⟨hrest, hend⟩ := ih (keeps.1 hs) keeps.2
    rw [visits, List.forall_mem_cons]
    exact ⟨⟨hs, hrest⟩, hend⟩

theorem Reachable.visits {levels : List LevelSpec} {commands : List Command} {s : Session σ}
    (h : Reachable levels s) {v : Visit σ} (hv : v ∈ visits commands s) : Reachable levels v.before :=
  (visits_keep h fun v _ hbefore => hbefore.command v.command).1 v hv

/-! ## Reports -/

/-- The session as a batch finds it: nothing has happened yet. -/
def opened (s : Session σ) : Session σ := { s with events := [] }

/-- The commands that a batch has executed by its report, with the sessions that found them. -/
def executions (s : Session σ) (r : BatchReport) : List (Visit σ) :=
  visits (r.commands.take r.executed) s.opened

/-- A script without commands says so; any other is run as a batch. -/
theorem runScript_ok {s t : Session σ} {code : String} {r : BatchReport}
    (h : s.runScript code = (t, .ok r)) : Script.read code.toList = .ok r.commands ∧
      ((r = { commands := [], results := [noCallsMessage] } ∧ t = s.opened.endBatch noCallsMessage) ∨
        r.commands ≠ [] ∧ ∃ u, runCommands r.commands s.opened { commands := r.commands } = (u, .ok r) ∧
          t = u.endBatch r.summary) := by
  unfold runScript at h
  split at h
  · cases h
  · rename_i commands hread
    simp only [runBatch] at h
    split at h
    · rename_i hempty
      cases h
      exact ⟨by rw [hread, List.isEmpty_iff.1 hempty], .inl ⟨rfl, rfl⟩⟩
    · rename_i hempty
      rcases hrun : runCommands commands s.opened { commands := commands } with ⟨u, failure | r'⟩
      · rw [opened] at hrun
        rw [hrun] at h
        cases h
      · have hcommands : r'.commands = commands := by
          rw [runCommands_report hrun, BatchReport.foldl_record]
        rw [opened] at hrun
        rw [hrun] at h
        cases h
        rw [hcommands]
        exact ⟨hread, .inr ⟨fun hnil => hempty (List.isEmpty_iff.2 hnil), u, hrun, rfl⟩⟩

theorem executed_eq {s t : Session σ} {code : String} {r : BatchReport}
    (h : s.runScript code = (t, .ok r)) : r.executed = (course r.commands s.opened).length := by
  obtain ⟨-, ⟨rfl, -⟩ | ⟨-, u, hrun, -⟩⟩ := runScript_ok h
  · rfl
  · have hreport := congrArg BatchReport.executed (runCommands_report hrun)
    rw [BatchReport.foldl_record] at hreport
    simpa using hreport

/-- What a batch has executed is its course. -/
theorem executions_eq {s t : Session σ} {code : String} {r : BatchReport}
    (h : s.runScript code = (t, .ok r)) :
    s.executions r = visits (course r.commands s.opened) s.opened := by
  rw [executions, executed_eq h, ← List.prefix_iff_eq_take.1 (course_initial _ _)]

/-- A batch reports what its executions come to. -/
theorem runScript_report {s t : Session σ} {code : String} {r : BatchReport}
    (h : s.runScript code = (t, .ok r)) :
    r.halted = (s.executions r).any Visit.halts ∧
      r.collided = (s.executions r).any (·.after.collided) ∧
      r.completed = (s.executions r).any Visit.celebrates ∧
      r.results = if r.commands = [] then [noCallsMessage] else (s.executions r).flatMap Visit.results := by
  rw [executions_eq h]
  obtain ⟨-, ⟨rfl, -⟩ | ⟨hnonempty, u, hrun, -⟩⟩ := runScript_ok h
  · exact ⟨rfl, rfl, rfl, rfl⟩
  · have hreport := runCommands_report hrun
    rw [BatchReport.foldl_record] at hreport
    refine ⟨?_, ?_, ?_, ?_⟩
    · simpa using congrArg BatchReport.halted hreport
    · simpa using congrArg BatchReport.collided hreport
    · simpa using congrArg BatchReport.completed hreport
    · rw [if_neg hnonempty]
      simpa using congrArg BatchReport.results hreport

/-- What a batch leads to is what its commands lead to, but for the note that it was halted and the
records of batches. -/
theorem runScript_session {s t : Session σ} {code : String} {r : BatchReport}
    (h : s.runScript code = (t, .ok r)) :
    ∃ halts : List Event, (∀ e ∈ halts, ∃ text, e = .halted text) ∧
      t = { (after (course r.commands s.opened) s.opened).endBatch r.summary with
        events := (after (course r.commands s.opened) s.opened).events ++ halts } := by
  obtain ⟨-, ⟨rfl, rfl⟩ | ⟨-, u, hrun, rfl⟩⟩ := runScript_ok h
  · exact ⟨[], by simp, rfl⟩
  · obtain ⟨halts, hhalts, rfl⟩ := runCommands_session hrun
    exact ⟨halts, hhalts, rfl⟩

end Session

end ScriptedRobot
