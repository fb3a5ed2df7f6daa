import ScriptedRobot.Proofs.Script.Reading
import ScriptedRobot.Proofs.Session.Agreement
import ScriptedRobot.Proofs.Session.Course

/-!
# One batch or two

Running two scripts as one batch, with a line feed between them, does the same as running them as two
batches, unless the first of them stops early (`batching`). A batch carries out its commands up to the first
one that stops it: one that meets an enemy, is halted at an obstacle or gives up.
-/

namespace ScriptedRobot

variable {σ : Type}

theorem Session.agree_opened (s : Session σ) : Agree s s.opened := ⟨rfl, rfl, rfl, rfl, rfl, rfl⟩

variable [WordSource σ]

/-- Does the command stop its batch: because robot and enemy meet, because it is halted, or because it gives
up? -/
def Visit.stops (v : Visit σ) : Bool := v.after.collided || v.halts || v.command.kind == .panic

namespace Session

/-- The commands up to the first one that stops the batch. -/
def upToStop : List (Visit σ) → List (Visit σ)
  | [] => []
  | v :: vs => v :: if v.stops then [] else upToStop vs

theorem endsBatch_eq (v : Visit σ) : v.endsBatch = (v.reply?.isNone || v.stops) := by
  simp [Visit.endsBatch, Visit.stops, Bool.or_assoc]

/-! ## Batches of sessions that agree -/

section Agreeing

variable {s t : Session σ} {c : Command}

theorem Agree.reply? (h : Agree s t) : (Visit.mk s c).reply? = (Visit.mk t c).reply? :=
  congrArg Except.toOption (h.execute c).answer

theorem Agree.after (h : Agree s t) : Agree (Visit.mk s c).after (Visit.mk t c).after := (h.execute c).session

theorem Agree.halts (h : Agree s t) : (Visit.mk s c).halts = (Visit.mk t c).halts := by
  have hafter : Agree (Visit.mk s c).after (Visit.mk t c).after := h.after
  rw [Visit.halts, Visit.halts, hafter.collided, h.reply?]

theorem Agree.endsBatch (h : Agree s t) : (Visit.mk s c).endsBatch = (Visit.mk t c).endsBatch := by
  have hafter : Agree (Visit.mk s c).after (Visit.mk t c).after := h.after
  rw [Visit.endsBatch, Visit.endsBatch, hafter.collided, h.reply?, h.halts]

theorem Agree.ending (h : Agree s t) : Agree (Visit.mk s c).ending (Visit.mk t c).ending := by
  have hafter : Agree (Visit.mk s c).after (Visit.mk t c).after := h.after
  unfold Visit.ending
  rw [h.reply?, h.halts]
  cases (Visit.mk t c).reply? with
  | none => exact hafter
  | some reply => exact related_ite (hafter.report _ _) hafter

theorem map_command_visits (commands : List Command) (s : Session σ) :
    (visits commands s).map Visit.command = commands := by
  induction commands generalizing s with
  | nil => rfl
  | cons c rest ih => rw [visits, List.map_cons, ih]

/-- Running commands does not depend on what the report says so far. -/
theorem Agree.runCommands (h : Agree s t) (commands : List Command) (r r' : BatchReport) :
    SameRun (runCommands commands s r) (runCommands commands t r') := by
  induction commands generalizing s t r r' with
  | nil => exact ⟨h, by simp [Session.runCommands]⟩
  | cons c rest ih =>
    have hexecute := h.execute c
    rcases hs : s.execute c with ⟨u, failure | reply⟩
    · rcases ht : t.execute c with ⟨u', failure' | reply'⟩
      · rw [hs, ht] at hexecute
        obtain ⟨hsession, hanswer⟩ := hexecute
        cases hanswer
        simp only [Session.runCommands, hs, ht]
        exact ⟨hsession, by simp⟩
      · rw [hs, ht] at hexecute
        cases hexecute.answer
    · rcases ht : t.execute c with ⟨u', failure' | reply'⟩
      · rw [hs, ht] at hexecute
        cases hexecute.answer
      · rw [hs, ht] at hexecute
        obtain ⟨hsession, hanswer⟩ := hexecute
        rw [runCommands_cons hs, runCommands_cons ht, h.endsBatch]
        cases (Visit.mk t c).endsBatch with
        | true => exact ⟨h.ending, by simp⟩
        | false => exact ih hsession _ _

end Agreeing

/-! ## Batches of joined commands -/

theorem runCommands_append {first : List Command} {s : Session σ}
    (goesOn : ∀ v ∈ visits first s, v.endsBatch = false) (rest : List Command) (r : BatchReport) :
    runCommands (first ++ rest) s r =
      runCommands rest (after first s) ((visits first s).foldl BatchReport.record r) := by
  induction first generalizing s r with
  | nil => rfl
  | cons c first ih =>
    rw [visits, List.forall_mem_cons] at goesOn
    obtain ⟨hfirst, hgoesOn⟩ := goesOn
    rcases hs : s.execute c with ⟨t, failure | reply⟩
    · simp [Visit.endsBatch, Visit.reply?, hs, Except.toOption] at hfirst
    · rw [hs] at hgoesOn
      rw [List.cons_append, runCommands_cons hs, if_neg (by rw [hfirst]; decide), ih hgoesOn, visits,
        List.foldl_cons, hs]
      simp [after, hs]

theorem answered_of_runCommands {c : Command} {rest : List Command} {s t : Session σ} {r r' : BatchReport}
    (h : runCommands (c :: rest) s r = (t, .ok r')) : (Visit.mk s c).reply?.isNone = false := by
  rcases hs : s.execute c with ⟨u, failure | reply⟩
  · simp only [runCommands, hs] at h
    cases h
  · simp [Visit.reply?, hs, Except.toOption]

theorem answered_of_visits {commands : List Command} {s t : Session σ} {r r' : BatchReport}
    (h : runCommands commands s r = (t, .ok r')) {v : Visit σ} (hv : v ∈ visits (course commands s) s) :
    v.reply?.isNone = false := by
  induction commands generalizing s r with
  | nil => cases hv
  | cons c rest ih =>
    have hfirst := answered_of_runCommands h
    rcases runCommands_ok h with ⟨ends, -, -⟩ | ⟨goesOn, hrest⟩
    · rw [course, if_pos ends, visits, visits, List.mem_singleton] at hv
      rw [hv]
      exact hfirst
    · rw [course, goesOn, if_neg Bool.false_ne_true, visits] at hv
      rcases List.mem_cons.1 hv with rfl | hv
      · exact hfirst
      · exact ih hrest hv

/-- A batch that gets through carries out its commands up to the first one that stops it. -/
theorem visits_course {commands : List Command} {s t : Session σ} {r r' : BatchReport}
    (h : runCommands commands s r = (t, .ok r')) :
    visits (course commands s) s = upToStop (visits commands s) := by
  induction commands generalizing s r with
  | nil => rfl
  | cons c rest ih =>
    have hends : (Visit.mk s c).endsBatch = (Visit.mk s c).stops := by
      rw [endsBatch_eq, answered_of_runCommands h, Bool.false_or]
    rw [course, visits, visits, upToStop, ← hends]
    rcases runCommands_ok h with ⟨ends, -, -⟩ | ⟨goesOn, hrest⟩
    · rw [ends]
      rfl
    · rw [goesOn, if_neg Bool.false_ne_true, if_neg Bool.false_ne_true, ih hrest]

/-! ## Scripts -/

theorem executions_upToStop {s t : Session σ} {code : String} {r : BatchReport}
    (h : s.runScript code = (t, .ok r)) : s.executions r = upToStop (visits r.commands s.opened) := by
  rw [executions_eq h]
  obtain ⟨-, ⟨rfl, -⟩ | ⟨-, u, hrun, -⟩⟩ := runScript_ok h
  · rfl
  · exact visits_course hrun

theorem answered_of_executions {s t : Session σ} {code : String} {r : BatchReport}
    (h : s.runScript code = (t, .ok r)) {v : Visit σ} (hv : v ∈ s.executions r) : v.reply?.isNone = false := by
  rw [executions_eq h] at hv
  obtain ⟨-, ⟨rfl, -⟩ | ⟨-, u, hrun, -⟩⟩ := runScript_ok h
  · cases hv
  · exact answered_of_visits hrun hv

theorem upToStop_eq_self {vs : List (Visit σ)} (h : ∀ v ∈ upToStop vs, v.stops = false) : upToStop vs = vs := by
  induction vs with
  | nil => rfl
  | cons v vs ih =>
    rw [upToStop, List.forall_mem_cons] at h
    obtain ⟨hv, hvs⟩ := h
    rw [hv, if_neg Bool.false_ne_true] at hvs
    rw [upToStop, hv, if_neg Bool.false_ne_true, ih hvs]

theorem runBatch_sameRun (s : Session σ) (commands : List Command) :
    SameRun (s.runBatch commands) (runCommands commands s.opened { commands := commands }) := by
  cases commands with
  | nil => exact ⟨⟨rfl, rfl, rfl, rfl, rfl, rfl⟩, fun e => ⟨fun h => (by cases h), fun h => (by cases h)⟩⟩
  | cons c rest =>
    simp only [runBatch, List.isEmpty_cons, Bool.false_eq_true, if_false]
    rw [← opened]
    rcases runCommands (c :: rest) s.opened { commands := c :: rest } with ⟨u, failure | r⟩
    · exact ⟨.refl u, fun e => Iff.rfl⟩
    · exact ⟨⟨rfl, rfl, rfl, rfl, rfl, rfl⟩, fun e => ⟨fun h => (by cases h), fun h => (by cases h)⟩⟩

/-- A script leads where its commands lead, whatever a report says at the start. -/
theorem runScript_sameRun {code : String} {commands : List Command} (read : Script.read code.toList = .ok commands)
    {s t : Session σ} (h : Agree s t) (r : BatchReport) :
    SameRun (s.runScript code) ((runCommands commands t r).1, (runCommands commands t r).2.mapError .entry) := by
  have hopened : Agree s.opened t := ⟨h.campaign, h.rng, h.play, h.credits, h.collided, h.log⟩
  have hrun := (runBatch_sameRun s commands).trans (hopened.runCommands commands { commands := commands } r)
  simp only [runScript, read]
  exact hrun.mapError BatchFailure.entry

/-- Where a script leads that nothing stops. -/
theorem agree_after_of_unstopped {a : String} {s u : Session σ} {r : BatchReport} (h : s.runScript a = (u, .ok r))
    (unstopped : ∀ v ∈ s.executions r, v.stops = false) :
    (∀ v ∈ visits r.commands s.opened, v.endsBatch = false) ∧ Agree (after r.commands s.opened) u := by
  have hvisits : s.executions r = visits r.commands s.opened := by
    rw [executions_upToStop h] at unstopped ⊢
    exact upToStop_eq_self unstopped
  have hgoesOn : ∀ v ∈ visits r.commands s.opened, v.endsBatch = false := by
    intro v hv
    rw [← hvisits] at hv
    rw [endsBatch_eq, answered_of_executions h hv, unstopped v hv]
    rfl
  have hall := runCommands_append hgoesOn [] { commands := r.commands }
  rw [List.append_nil] at hall
  have hrun := (runScript_sameRun (runScript_ok h).1 (agree_opened s) { commands := r.commands }).session
  rw [h, hall] at hrun
  exact ⟨hgoesOn, hrun.symm⟩

/-- Two scripts with a line feed between them, run as one batch, carry out the commands of the one and then
those of the other up to the first one that stops the batch. If nothing in the first script stops it, this
leads where running the scripts as two batches leads, and fails if that fails. -/
theorem batching_agrees {a b : String} {ca cb : List Command} (ha : Script.read a.toList = .ok ca)
    (hb : Script.read b.toList = .ok cb) (s : Session σ) :
    Script.read (a ++ "\n" ++ b).toList = .ok (ca ++ cb) ∧
      (∀ t r, s.runScript (a ++ "\n" ++ b) = (t, .ok r) →
        s.executions r = upToStop (visits (ca ++ cb) s.opened) ∧
          Agree t (after ((s.executions r).map Visit.command) s.opened)) ∧
      ∀ u ra, s.runScript a = (u, .ok ra) → (∀ v ∈ s.executions ra, v.stops = false) →
        SameRun (s.runScript (a ++ "\n" ++ b)) (u.runScript b) := by
  have hjoin : Script.read (a ++ "\n" ++ b).toList = .ok (ca ++ cb) := by
    have hlist : (a ++ "\n" ++ b).toList = a.toList ++ '\n' :: b.toList := by simp
    rw [hlist]
    exact Script.read_join ha hb
  refine ⟨hjoin, ?_, ?_⟩
  · intro t r h
    have hcommands : r.commands = ca ++ cb := Except.ok.inj ((runScript_ok h).1.symm.trans hjoin)
    refine ⟨hcommands ▸ executions_upToStop h, ?_⟩
    obtain ⟨halts, -, ht⟩ := runScript_session h
    rw [executions_eq h, map_command_visits, ht]
    exact ⟨rfl, rfl, rfl, rfl, rfl, rfl⟩
  · intro u ra h unstopped
    have hcommands : ra.commands = ca := Except.ok.inj ((runScript_ok h).1.symm.trans ha)
    obtain ⟨hgoesOn, hafter⟩ := agree_after_of_unstopped h unstopped
    rw [hcommands] at hgoesOn hafter
    -- the second script goes on with the report of the first, but where it leads does not depend on that
    have hwhole := runScript_sameRun hjoin (agree_opened s) { commands := ca ++ cb }
    rw [runCommands_append hgoesOn] at hwhole
    have hsecond := runScript_sameRun hb hafter.symm
      ((visits ca s.opened).foldl BatchReport.record { commands := ca ++ cb })
    exact hwhole.trans hsecond.symm

theorem batching_agrees_courtyard :
    Script.read "println!(\"here\")\r\ngrab()".toList = .ok [.println "here", .grab] ∧
      Script.read "panic!()\nmove(down)".toList = .ok [.panic none, .move .down] ∧
      (∃ t r, inCourtyard.runScript "println!(\"here\")\r\ngrab()\npanic!()\nmove(down)" = (t, .ok r) ∧
        (inCourtyard.executions r).map Visit.command = [.println "here", .grab, .panic none]) ∧
      SameRun (inCourtyard.runScript "println!(\"here\")\r\ngrab()\npanic!()\nmove(down)")
        ((inCourtyard.runScript "println!(\"here\")\r\ngrab()").1.runScript "panic!()\nmove(down)") := by
  have ha : Script.read "println!(\"here\")\r\ngrab()".toList = .ok [.println "here", .grab] := by decide +kernel
  have hb : Script.read "panic!()\nmove(down)".toList = .ok [.panic none, .move .down] := by decide +kernel
  obtain ⟨-, hexecuted, hbatches⟩ := batching_agrees ha hb inCourtyard
  refine ⟨ha, hb, ?_, ?_⟩
  · have ran : inCourtyard.runScript "println!(\"here\")\r\ngrab()\npanic!()\nmove(down)" = (_, .ok
        { commands := [.println "here", .grab, .panic none, .move .down]
          results := ["here", "Grabbed items!", "Level completed!", "panicked: explicit panic"]
          executed := 3
          completed := true }) := Prod.ext rfl (by decide +kernel)
    refine ⟨_, _, ran, ?_⟩
    rw [(hexecuted _ _ ran).1]
    decide +kernel
  · have ran : inCourtyard.runScript "println!(\"here\")\r\ngrab()" = (_, .ok
        { commands := [.println "here", .grab]
          results := ["here", "Grabbed items!", "Level completed!"]
          executed := 2
          completed := true }) := Prod.ext rfl (by decide +kernel)
    exact hbatches _ _ ran (by decide +kernel)

end Session

end ScriptedRobot
