import ScriptedRobot.Proofs.Session.Batching
import ScriptedRobot.Proofs.Session.Recording

/-!
# What the events of a batch tell

`Tells` says of two sessions which events have been recorded between them, and that the moves of enemies
among these lead, one by one, from where the enemies stood to where they stand. Every small step tells
something in this sense, so whole commands and whole batches do. `events_faithful` adds that besides such
accompanying events there is one for each command, and in which order the events of a command come.
-/

namespace ScriptedRobot

namespace Event

/-- The move of an enemy that the event tells. -/
def move? : Event → Option EnemyMove
  | enemyMoved m => some m
  | _ => none

/-- Does the event tell what has come with a command, and not the command itself? -/
def isAside : Event → Bool
  | itemsCollected _ | enemyMoved _ | levelComplete _ _ | halted _ => true
  | executed _ _ | collision _ => false

theorem filterMap_move? (moves : List EnemyMove) : (moves.map enemyMoved).filterMap move? = moves := by
  induction moves with
  | nil => rfl
  | cons m moves ih =>
    have hmove : move? (enemyMoved m) = some m := rfl
    rw [List.map_cons, List.filterMap_cons_some hmove, ih]

end Event

/-! ## Moves retraced -/

/-- Moves a piece, which has to stand where the move starts. -/
def EnemyMove.retrace (ps : List Position) (m : EnemyMove) : Option (List Position) :=
  if ps[m.index]? = some m.old then some (ps.set m.index m.new) else none

/-- Where the pieces stand after some moves. -/
def retrace (moves : List EnemyMove) (ps : List Position) : Option (List Position) :=
  moves.foldlM EnemyMove.retrace ps

theorem retrace_append {moves more : List EnemyMove} {ps qs rs : List Position} (h : retrace moves ps = some qs)
    (k : retrace more qs = some rs) : retrace (moves ++ more) ps = some rs := by
  rw [retrace, List.foldlM_append, ← retrace, h]
  exact k

namespace Board

/-- Where the enemies stand. -/
def standing (b : Board) : List Position := b.enemies.map (·.position)

variable {σ : Type} [WordSource σ]

theorem tickEnemy_retrace (b : Board) (player : Option Position) (i : Nat) (g : σ) :
    retrace (b.tickEnemy player i g).2.1.toList b.standing = some (b.tickEnemy player i g).1.standing := by
  cases he : b.enemies[i]? with
  | none =>
    simp only [tickEnemy, he]
    rfl
  | some e =>
    obtain ⟨target, e', g', hticks, htick⟩ := tickEnemy_of_getElem? he player g
    have hposition := hticks.position
    have hstands : b.standing[i]? = some e.position := by rw [standing, List.getElem?_map, he, Option.map_some]
    rw [htick]
    show retrace _ b.standing = some ((b.enemies.set i e').map (·.position))
    rw [List.map_set]
    cases target with
    | none =>
      obtain ⟨hlt, hvalue⟩ := List.getElem?_eq_some_iff.1 hstands
      have hstays : e'.position = b.standing[i] := hposition.trans hvalue.symm
      show some b.standing = some (b.standing.set i e'.position)
      rw [hstays, List.set_getElem_self]
    | some p =>
      have hgoes : e'.position = p := hposition
      rw [hgoes]
      show (EnemyMove.retrace b.standing ⟨i, e.position, p⟩ >>= pure) = _
      rw [EnemyMove.retrace, if_pos hstands]
      rfl

/-- The moves of enemies that move in turn lead from where they stood to where they stand. -/
theorem tickAll_retrace (player : Option Position) (is : List Nat) (b : Board) (g : σ) :
    retrace (tickAll player is b g).2.1 b.standing = some (tickAll player is b g).1.standing := by
  induction is generalizing b g with
  | nil => rfl
  | cons i is ih =>
    rw [tickAll_cons]
    exact retrace_append (b.tickEnemy_retrace player i g) (ih _ _)

end Board

/-- The kinds of small step that tell something. -/
def Deed.telling : List Deed := [enemies, tell, finish, answer]

namespace Session

variable {σ : Type}

/-! ## What is told between two sessions -/

/-- Between the two sessions these events have been recorded, and the moves among them are those that the
enemies have made. -/
structure Tells (es : List Event) (s t : Session σ) : Prop where
  events : t.events = s.events ++ es
  moves : retrace (es.filterMap Event.move?) s.play.board.standing = some t.play.board.standing

variable {es fs : List Event} {s t u : Session σ}

theorem Tells.quiet (events : t.events = s.events) (enemies : t.play.board.enemies = s.play.board.enemies) :
    Tells [] s t := by
  refine ⟨by rw [events, List.append_nil], ?_⟩
  rw [Board.standing, Board.standing, enemies]
  rfl

theorem Tells.refl (s : Session σ) : Tells [] s s := .quiet rfl rfl

theorem Tells.trans (h : Tells es s t) (k : Tells fs t u) : Tells (es ++ fs) s u := by
  refine ⟨by rw [k.events, h.events, List.append_assoc], ?_⟩
  rw [List.filterMap_append]
  exact retrace_append h.moves k.moves

theorem Tells.report (s : Session σ) {e : Event} (still : e.move? = none) : Tells [e] s (s.report e) := by
  refine ⟨rfl, ?_⟩
  rw [List.filterMap_cons_none still]
  rfl

variable [WordSource σ]

theorem Step.events_eq {d : Deed} (h : Step s d t) (hd : d ∉ Deed.telling) : t.events = s.events := by
  cases h with
  | collect found =>
    rename_i p i items
    obtain ⟨timeSlow, he⟩ := (s.onPlay fun play => { play with items := items }).applyItem_spec i
    rw [he]
    rfl
  | enemies _ _ _ => exact absurd (by decide) hd
  | tell _ => exact absurd (by decide) hd
  | finish _ _ => exact absurd (by decide) hd
  | answer _ _ => exact absurd (by decide) hd
  | _ => rfl

theorem Step.quiet {d : Deed} (h : Step s d t) (hd : d ∉ Deed.telling := by decide) : Tells [] s t := by
  refine .quiet (h.events_eq hd) (h.untouched.enemies ?_)
  rintro rfl
  exact hd (by decide)

theorem StepsOf.quiet {ds : List Deed} (h : StepsOf ds s t) (hds : ∀ d ∈ ds, d ∉ Deed.telling := by decide) :
    Tells [] s t := by
  induction h with
  | refl => exact .refl s
  | tail _ hstep ih =>
    obtain ⟨d, hd, hstep⟩ := hstep
    exact ih.trans (hstep.quiet (hds d hd))

theorem moveEnemies_tells (s : Session σ) :
    ∃ moves : List EnemyMove, Tells (moves.map .enemyMoved) s s.moveEnemies := by
  refine ⟨_, rfl, ?_⟩
  rw [Event.filterMap_move?]
  exact Board.tickAll_retrace _ _ _ _

/-- Unless it answers a command, a small step tells only what comes with commands. -/
theorem Step.tells {d : Deed} (h : Step s d t) (hd : d ≠ .answer) :
    ∃ es, (∀ e ∈ es, e.isAside = true) ∧ Tells es s t := by
  by_cases silent : d ∉ Deed.telling
  · exact ⟨[], fun e he => absurd he List.not_mem_nil, h.quiet silent⟩
  · cases h with
    | enemies _ _ _ =>
      obtain ⟨moves, hmoves⟩ := s.moveEnemies_tells
      refine ⟨_, ?_, hmoves⟩
      intro e he
      obtain ⟨m, -, rfl⟩ := List.mem_map.1 he
      rfl
    | tell names => exact ⟨_, by simp [Event.isAside], .report s rfl⟩
    | finish _ _ =>
      have hfinish : Tells [.levelComplete s.level s.spec.name] s s.finish := ⟨rfl, rfl⟩
      exact ⟨_, by simp [Event.isAside], hfinish⟩
    | answer _ _ => exact absurd rfl hd
    | _ => exact absurd (by decide) silent

theorem StepsOf.tells {ds : List Deed} (h : StepsOf ds s t) (hds : .answer ∉ ds) :
    ∃ es, (∀ e ∈ es, e.isAside = true) ∧ Tells es s t := by
  induction h with
  | refl => exact ⟨[], fun e he => absurd he List.not_mem_nil, .refl s⟩
  | tail _ hstep ih =>
    obtain ⟨es, hes, hfirst⟩ := ih
    obtain ⟨d, hd, hstep⟩ := hstep
    obtain ⟨fs, hfs, hlast⟩ := hstep.tells fun heq => hds (heq ▸ hd)
    refine ⟨es ++ fs, ?_, hfirst.trans hlast⟩
    intro e he
    rcases List.mem_append.1 he with he | he
    · exact hes e he
    · exact hfs e he

/-! ## In which order -/

/-- The events of items collected, if there are any, and then those of the enemies' moves. -/
def TellsInTurn (s t : Session σ) : Prop :=
  ∃ (collected : List Event) (moves : List EnemyMove), (∀ e ∈ collected, ∃ names, e = .itemsCollected names) ∧
    Tells (collected ++ moves.map .enemyMoved) s t

omit [WordSource σ] in
theorem Tells.inTurn (h : Tells [] s t) : TellsInTurn s t := ⟨[], [], by simp, h⟩

theorem grab_tells (s : Session σ) :
    ∃ collected : List Event, (∀ e ∈ collected, ∃ names, e = .itemsCollected names) ∧ Tells collected s s.grab.1 := by
  have hcollect : Tells [] s (collectAll s.reach s).1 := (collectAll_steps s.reach s).quiet
  have hclaim : Tells [] s ((collectAll s.reach s).1.claim (collectAll s.reach s).1.reach).1 :=
    hcollect.trans (Step.claim (collectAll s.reach s).1).quiet
  simp only [grab]
  split
  · exact ⟨[], by simp, hclaim⟩
  · exact ⟨_, by simp, hclaim.trans (.report _ rfl)⟩

theorem endTurn_tells (clear : s.endTurn.collided = false) :
    ∃ moves : List EnemyMove, Tells (moves.map .enemyMoved) s s.endTurn := by
  unfold endTurn at clear ⊢
  split
  · rename_i awake
    rw [if_pos awake] at clear
    obtain ⟨moves, hmoves⟩ := s.moveEnemies_tells
    simp only at clear ⊢
    split
    · rename_i meets
      rw [if_pos meets] at clear
      cases clear
    · have htick := hmoves.trans (Step.tick s.moveEnemies).quiet
      rw [List.append_nil] at htick
      exact ⟨moves, htick⟩
  · exact ⟨[], (Step.tick s).quiet⟩

theorem TellsInTurn.endTurn (h : Tells [] s t) (clear : t.endTurn.collided = false) : TellsInTurn s t.endTurn := by
  obtain ⟨moves, hmoves⟩ := endTurn_tells clear
  exact ⟨[], moves, by simp, h.trans hmoves⟩

theorem grab_endTurn_tells (h : Tells [] s t) (clear : t.grab.1.endTurn.collided = false) :
    TellsInTurn s t.grab.1.endTurn := by
  obtain ⟨collected, hcollected, hgrab⟩ := t.grab_tells
  obtain ⟨moves, hmoves⟩ := endTurn_tells clear
  exact ⟨collected, moves, hcollected, (h.trans hgrab).trans hmoves⟩

theorem move_tells {h : Heading} (clear : (s.move h.step).1.collided = false) :
    TellsInTurn s (s.move h.step).1 := by
  by_cases opens : (Stride.mk s h).IsOpen
  · obtain ⟨meets, hmove⟩ := move_of_clear opens clear
    obtain ⟨inside, way⟩ := opens
    have hspend : Tells [] s (s.onPlay fun p => { p with turns := p.turns + 1 }) := (Step.spend s).quiet
    have hwalk : Step (s.onPlay fun p => { p with turns := p.turns + 1 }) .walk (s.arrival h.step) :=
      .walk h inside way meets
    have harrive : Tells [] s (s.arrival h.step) := hspend.trans hwalk.quiet
    rw [hmove] at clear ⊢
    unfold landing at clear ⊢
    split
    · rename_i grabs
      rw [if_pos grabs] at clear
      exact grab_endTurn_tells harrive clear
    · rename_i grabs
      rw [if_neg grabs] at clear
      exact .endTurn harrive clear
  · exact (move_barred opens).quiet.inTurn

theorem scan_tells {direction : Position} (clear : (s.scan direction).1.collided = false) :
    TellsInTurn s (s.scan direction).1 := by
  have hscan : Tells [] s (s.scanning direction).1 := (scanAll_steps _ s).quiet
  rw [scan_eq] at clear ⊢
  split
  · rename_i through
    rw [if_pos through] at clear
    exact .endTurn hscan clear
  · exact hscan.inTurn

/-- A command that is carried out and is no search tells of the items first and of the enemies then. -/
theorem perform_tells {c : Command} {r : Reply} (allowed : c.kind ∈ s.availableFunctions)
    (stays : s.destination? c = none) (search : c ≠ .searchAll) (answered : s.perform c = (t, .ok r))
    (clear : t.collided = false) : TellsInTurn s t := by
  have hresult : (s.perform c).1 = t := by rw [answered]
  rw [← hresult] at clear ⊢
  cases c with
  | move heading =>
    simp only [perform] at clear ⊢
    split
    · exact (Tells.refl s).inTurn
    · rename_i unfinished
      rw [if_neg unfinished] at clear
      exact move_tells clear
  | grab => exact grab_endTurn_tells (.refl s) clear
  | scan heading => exact scan_tells clear
  | searchAll => exact absurd rfl search
  | setAutoGrab on => exact (Step.autoGrab s on).quiet.inTurn
  | laserDirection heading =>
    have armed := isArmed_of_laser allowed (.inl rfl)
    exact .endTurn (fireDirection_steps armed heading.step).quiet clear
  | laserTile p =>
    have armed := isArmed_of_laser allowed (.inr rfl)
    exact .endTurn (fireTile_steps armed p).quiet clear
  | openDoor wide => exact .endTurn (turnDoor_steps s wide).quiet clear
  | skipLevel =>
    simp only [destination?] at stays
    split at stays
    · rename_i last
      simp only [perform, if_pos last]
      exact (Tells.refl s).inTurn
    · cases stays
  | gotoLevel n =>
    simp only [destination?] at stays
    split at stays
    · cases stays
    · rename_i outside
      simp only [perform, if_neg outside]
      exact (Tells.refl s).inTurn
  | println text => exact (Step.print s text).quiet.inTurn
  | eprintln text => exact (Step.complain s text).quiet.inTurn
  | panic message => exact (Step.giveUp s).quiet.inTurn

omit [WordSource σ] in
theorem checkCompletion_tells (s : Session σ) : ∃ completed : List Event,
    (∀ e ∈ completed, ∃ level name, e = .levelComplete level name) ∧ Tells completed s s.checkCompletion := by
  unfold checkCompletion
  split
  · exact ⟨[], by simp, .refl s⟩
  · split
    · exact ⟨[.levelComplete s.level s.spec.name], by simp, rfl, rfl⟩
    · exact ⟨[], by simp, .refl s⟩

end Session

/-! ## Commands -/

namespace Visit

open Session

variable {σ : Type} [WordSource σ] {v : Visit σ} {reply : Reply}

/-- The events that the command adds. -/
def told (v : Visit σ) : List Event := v.after.events.drop v.before.events.length

theorem told_eq {es : List Event} (h : Tells es v.before v.after) : v.told = es := by
  rw [told, h.events, List.drop_left]

/-- A command that stays on its level tells, after what has come with it, how it was answered. -/
theorem Stays.tells (stays : v.Stays) (answered : v.reply? = some reply) : ∃ es, (∀ e ∈ es, e.isAside = true) ∧
    Tells (es ++ [.executed v.command.kind reply.text]) v.before v.after := by
  have happart : Tells [] v.before v.before.apart := .quiet rfl rfl
  obtain ⟨clear, noLoad⟩ := stays
  have heffect := execute_effect v.before v.command
  rcases he : v.before.execute v.command with ⟨t, outcome⟩
  have hafter : v.after = t := by rw [after, he]
  have hreply : outcome.toOption = some reply := by rw [← answered, reply?, he]
  rw [hafter] at clear ⊢
  rw [he] at heffect
  cases heffect with
  | refused _ =>
    cases hreply
    exact ⟨[], by simp, happart.trans (.report _ rfl)⟩
  | failed _ _ => cases hreply
  | entered goes load => exact absurd load (noLoad _ _ goes)
  | @settled u r _ _ steps =>
    cases hreply
    have hdeeds : .answer ∉ v.command.deeds := by
      cases v.command <;> simp [Command.deeds, Deed.ofMove, Deed.ofGrab, Deed.ofLaser, Deed.ofTurn]
    obtain ⟨es, hes, hsteps⟩ := steps.tells hdeeds
    obtain ⟨fs, hfs, hfinish⟩ := (checkCompletion_finish u).tells (by decide)
    refine ⟨es ++ fs, ?_, ((happart.trans hsteps).trans hfinish).trans (.report _ rfl)⟩
    intro e he
    rcases List.mem_append.1 he with he | he
    · exact hes e he
    · exact hfs e he
  | met _ _ _ _ => cases clear

/-- The order of the events of a command: items collected, moves of enemies, the level completed, the command. -/
def InOrder (v : Visit σ) : Prop :=
  ∃ (collected : List Event) (moves : List EnemyMove) (completed : List Event) (reply : Reply),
    (∀ e ∈ collected, ∃ names, e = .itemsCollected names) ∧
    (∀ e ∈ completed, ∃ level name, e = .levelComplete level name) ∧
    v.told = collected ++ moves.map .enemyMoved ++ completed ++ [.executed v.command.kind reply.text]

/-- A command that stays on its level and is no search tells its events in order. -/
theorem Stays.inOrder (stays : v.Stays) (answered : v.reply? = some reply) (search : v.command ≠ .searchAll) :
    v.InOrder := by
  have happart : Tells [] v.before v.before.apart := .quiet rfl rfl
  obtain ⟨clear, noLoad⟩ := stays
  by_cases allowed : v.command.kind ∈ v.before.availableFunctions
  · cases hd : v.before.destination? v.command with
    | some i =>
      -- a command that goes to a level and is answered has entered it
      obtain ⟨r, hperform⟩ := perform_of_destination (s := v.before.apart) hd
      rcases hload : v.before.apart.load i with ⟨t, failure | _⟩
      · rw [enterLevel, hload] at hperform
        rw [reply?, execute_failed allowed hperform] at answered
        cases answered
      · exact absurd hload (noLoad i t hd)
    | none =>
      obtain ⟨t, r, hperform, -⟩ := perform_outcome (s := v.before.apart) allowed hd
      by_cases meets : t.collided = true
      · rw [after, execute_met allowed hperform meets] at clear
        exact absurd meets (Bool.eq_false_iff.1 clear)
      · simp only [Bool.not_eq_true] at meets
        obtain ⟨collected, moves, hcollected, hturn⟩ :=
          perform_tells (s := v.before.apart) allowed hd search hperform meets
        obtain ⟨completed, hcompleted, hcheck⟩ := t.checkCompletion_tells
        have hafter : v.after = t.checkCompletion.report (.executed v.command.kind r.text) := by
          rw [after, execute_answered allowed hperform meets]
        have hall : Tells (collected ++ moves.map .enemyMoved ++ completed ++ [.executed v.command.kind r.text])
            v.before v.after := by
          rw [hafter]
          exact ((happart.trans hturn).trans hcheck).trans (.report _ rfl)
        exact ⟨collected, moves, completed, r, hcollected, hcompleted, told_eq hall⟩
  · have hafter : v.after = v.before.apart.report (.executed v.command.kind Reply.notAvailable.text) := by
      rw [after, execute_refused allowed]
    have hall : Tells [.executed v.command.kind Reply.notAvailable.text] v.before v.after := by
      rw [hafter]
      exact happart.trans (.report _ rfl)
    exact ⟨[], [], [], .notAvailable, by simp, by simp, told_eq hall⟩

/-- The event tells that the command was executed, and how it was answered. -/
def IsToldBy (v : Visit σ) (e : Event) : Prop :=
  ∃ reply, v.reply? = some reply ∧ e = .executed v.command.kind reply.text

end Visit

namespace Session

variable {σ : Type} [WordSource σ] {s t : Session σ}

/-! ## Batches -/

theorem filter_asides {es : List Event} (h : ∀ e ∈ es, e.isAside = true) : es.filter (fun e => !e.isAside) = [] := by
  rw [List.filter_eq_nil_iff]
  intro e he
  rw [h e he]
  simp

/-- Commands that stay on their level tell what they do one after the other. -/
theorem visits_tell {commands : List Command} (stay : ∀ v ∈ visits commands s, v.Stays)
    (answered : ∀ v ∈ visits commands s, v.reply?.isNone = false) :
    Tells ((visits commands s).flatMap Visit.told) s (after commands s) ∧
      List.Forall₂ Visit.IsToldBy (visits commands s)
        (((visits commands s).flatMap Visit.told).filter fun e => !e.isAside) := by
  induction commands generalizing s with
  | nil => exact ⟨.refl s, .nil⟩
  | cons c rest ih =>
    rw [visits, List.forall_mem_cons] at stay answered
    obtain ⟨reply, hreply⟩ := Option.isSome_iff_exists.1 (Option.isNone_eq_false_iff.1 answered.1)
    obtain ⟨es, hes, hfirst⟩ := stay.1.tells hreply
    obtain ⟨hlater, htold⟩ := ih stay.2 answered.2
    have heq := Visit.told_eq hfirst
    rw [visits, List.flatMap_cons, heq]
    refine ⟨hfirst.trans hlater, ?_⟩
    have hown : (es ++ [Event.executed c.kind reply.text]).filter (fun e => !e.isAside) =
        [.executed c.kind reply.text] := by
      rw [List.filter_append, filter_asides hes]
      rfl
    rw [List.filter_append, hown]
    exact .cons ⟨reply, hreply, rfl⟩ htold

/-- The events of a batch that stays on its level are a faithful account of it: the moves of enemies lead, each
from where its enemy stands, from where the enemies stood to where they stand; the events that stand for
commands are one for each command executed, in order, with its kind and its answer; and each command but a
search tells what came with it in order. -/
theorem events_faithful {code : String} {r : BatchReport} (ran : s.runScript code = (t, .ok r))
    (stay : ∀ v ∈ s.executions r, v.Stays) :
    retrace (t.events.filterMap Event.move?) s.play.board.standing = some t.play.board.standing ∧
      List.Forall₂ Visit.IsToldBy (s.executions r) (t.events.filter fun e => !e.isAside) ∧
      (∃ halts : List Event, (∀ e ∈ halts, ∃ text, e = .halted text) ∧
        t.events = (s.executions r).flatMap Visit.told ++ halts) ∧
      ∀ v ∈ s.executions r, v.command ≠ .searchAll → v.InOrder := by
  have hanswered := fun v (hv : v ∈ s.executions r) => answered_of_executions ran hv
  have hexecutions := executions_eq ran
  obtain ⟨halts, hhalts, hsession⟩ := runScript_session ran
  have hmoves : halts.filterMap Event.move? = [] := by
    rw [List.filterMap_eq_nil_iff]
    intro e he
    obtain ⟨text, rfl⟩ := hhalts e he
    rfl
  have hasides : halts.filter (fun e => !e.isAside) = [] := by
    refine filter_asides fun e he => ?_
    obtain ⟨text, rfl⟩ := hhalts e he
    rfl
  have hbatch := visits_tell (hexecutions ▸ stay) (hexecutions ▸ hanswered)
  rw [← hexecutions] at hbatch
  obtain ⟨htells, htold⟩ := hbatch
  have hevents : t.events = (s.executions r).flatMap Visit.told ++ halts := by
    have hopened : s.opened.events = [] := rfl
    have hafter := htells.events
    rw [hopened, List.nil_append] at hafter
    rw [hsession, ← hafter]
  have hstanding : t.play.board.standing = (after (course r.commands s.opened) s.opened).play.board.standing := by
    rw [hsession]
    rfl
  refine ⟨?_, ?_, ⟨halts, hhalts, hevents⟩, ?_⟩
  · rw [hevents, List.filterMap_append, hmoves, List.append_nil, hstanding]
    exact htells.moves
  · rw [hevents, List.filter_append, hasides, List.append_nil]
    exact htold
  · intro v hv search
    obtain ⟨reply, hreply⟩ := Option.isSome_iff_exists.1 (Option.isNone_eq_false_iff.1 (hanswered v hv))
    exact (stay v hv).inOrder hreply search

/-- In the courtyard a script greets and grabs the coin below the robot, while the enemy comes closer. -/
theorem events_faithful_courtyard :
    ∃ t r, inCourtyard.runScript "println!(\"Hello\")\ngrab()" = (t, .ok r) ∧
      (∀ v ∈ inCourtyard.executions r, v.Stays) ∧ t.events.filterMap Event.move? = [⟨0, ⟨2, 0⟩, ⟨1, 0⟩⟩] ∧
      retrace (t.events.filterMap Event.move?) inCourtyard.play.board.standing = some t.play.board.standing ∧
      List.Forall₂ Visit.IsToldBy (inCourtyard.executions r) (t.events.filter fun e => !e.isAside) ∧
      ∀ v ∈ inCourtyard.executions r, v.command ≠ .searchAll → v.InOrder := by
  let report : BatchReport :=
    { commands := [.println "Hello", .grab]
      results := ["Hello", "Grabbed items!", "Level completed!"]
      executed := 2
      completed := true }
  have ran : inCourtyard.runScript "println!(\"Hello\")\ngrab()" = (_, .ok report) :=
    Prod.ext rfl (by decide +kernel)
  have stay : ∀ v ∈ inCourtyard.executions report, v.Stays := visits_stay (by decide) (by decide +kernel)
  obtain ⟨hmoves, hcommands, -, horder⟩ := events_faithful ran stay
  exact ⟨_, _, ran, stay, by decide +kernel, hmoves, hcommands, horder⟩

end Session

end ScriptedRobot
