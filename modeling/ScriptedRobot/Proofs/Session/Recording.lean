import ScriptedRobot.Proofs.Session.Searching

/-!
# What there is to record of a command

Some of what a command does is worth keeping a record of: a grab, a scan, the end of a turn, the completion of the
level. A `Recorder` says what is written down about each of these where it happens, and `Recorder.visit` reads off
the whole record of a command, a search with all its steps included. A relation that `Tracks` the recorder is one
that the single entries establish; then whole commands establish it with their whole records
(`Recorder.Tracks.execute`).
-/

namespace ScriptedRobot

variable {σ α : Type}

/-! ## Records -/

/-- What is to be written down. -/
structure Recorder (σ α : Type) where
  /-- About a grab. -/
  grab : Session σ → List α := fun _ => []
  /-- About a scan in a direction, before its turn ends. -/
  scan : Session σ → Position → List α := fun _ _ => []
  /-- About the end of a turn. -/
  turn : Session σ → List α := fun _ => []
  /-- About looking whether the level is complete. -/
  check : Session σ → List α := fun _ => []

namespace Session

/-- The tiles that a scan goes over one by one. -/
def scanning (s : Session σ) (step : Position) : Session σ × Bool × Bool :=
  scanAll (s.play.robot.scannerTiles step s.play.board.width s.play.board.height) s

/-- What a laser command does before it ends its turn. -/
def fires (s : Session σ) : Command → Option (Session σ × Reply)
  | .laserDirection h => some (s.fireDirection h.step)
  | .laserTile p => some (s.fireTile p)
  | _ => none

end Session

namespace Recorder

variable (r : Recorder σ α)

/-- The record of a step: of the grab at its end, if there is one, and of the end of its turn. There is none if
the step is barred or meets an enemy. -/
def step (s : Session σ) (step : Position) : List α :=
  if s.play.board.inBounds (s.play.robot.position + step) && !s.isBlocked (s.play.robot.position + step) &&
    !(s.arrival step).meetsEnemy then
    (if (s.arrival step).play.robot.autoGrab && (s.arrival step).hasGrabbable then r.grab (s.arrival step) else []) ++
      r.turn (s.landing step)
  else []

/-- The record of looking ahead, the end of the turn included unless the scan is barred. -/
def look (s : Session σ) (step : Position) : List α :=
  r.scan s step ++ if (s.scanning step).2.1 then r.turn (s.scanning step).1 else []

variable [WordSource σ]

/-- The record of a command that is carried out. -/
def command (s : Session σ) : Command → List α
  | .move h => if s.play.finished then [] else r.step s h.step
  | .grab => r.grab s ++ r.turn s.grab.1
  | .scan h => r.look s h.step
  | .searchAll => (Session.strides (s.pausing true).searchPath (s.pausing true)).flatMap fun v =>
      r.step v.before v.heading.step
  | .laserDirection h => r.turn (s.fireDirection h.step).1
  | .laserTile p => r.turn (s.fireTile p).1
  | .openDoor wide => r.turn (s.turnDoor wide).1
  | _ => []

/-- The record of a command: there is none if the level does not allow it or it fails. -/
def visit (v : Visit σ) : List α :=
  if v.command.kind ∈ v.before.availableFunctions then
    match v.before.apart.perform v.command with
    | (t, .ok _) => r.command v.before.apart v.command ++ r.check t
    | (_, .error _) => []
  else []

end Recorder

variable [WordSource σ]

/-- The level allows the command, and it fires the laser, which comes to this. -/
def Visit.Fires (v : Visit σ) (o : Session σ × Reply) : Prop :=
  v.command.kind ∈ v.before.availableFunctions ∧ v.before.apart.fires v.command = some o

/-- The command enters no level and meets no enemy. -/
def Visit.Stays (v : Visit σ) : Prop :=
  v.after.collided = false ∧
    ∀ i u, v.before.destination? v.command = some i → v.before.apart.load i ≠ (u, .ok ())

theorem Visit.Stays.of_destination {v : Visit σ} (clear : v.after.collided = false)
    (none : v.before.destination? v.command = none) : v.Stays := by
  refine ⟨clear, fun i u goes => ?_⟩
  rw [none] at goes
  cases goes

/-- Commands that go to no level stay on the level as long as no enemy is met. -/
theorem Session.visits_stay {commands : List Command} {s : Session σ}
    (kinds : ∀ c ∈ commands, c.kind ≠ .skipLevel ∧ c.kind ≠ .gotoLevel)
    (clear : ∀ v ∈ Session.visits commands s, v.after.collided = false) : ∀ v ∈ Session.visits commands s, v.Stays := by
  intro v hv
  have hkind := kinds v.command (Session.command_mem_of_visits hv)
  exact .of_destination (clear v hv) (Session.destination_eq_none hkind)

/-- The kinds of small step that records are about. -/
def Deed.recorded : List Deed := ofGrab ++ ofLaser ++ ofTurn ++ [scan, finish]

/-- The relation holds, with what is recorded, of all that commands consist of; shots apart, which nothing is
recorded of. -/
structure Recorder.Tracks (r : Recorder σ α) (R : List α → Session σ → Session σ → Prop) : Prop where
  records : ∀ {s t : Session σ}, t.play = s.play → t.credits = s.credits → R [] s t
  trans : ∀ {as bs : List α} {s t u : Session σ}, R as s t → R bs t u → R (as ++ bs) s u
  step : ∀ {d : Deed} {s t : Session σ}, Session.Step s d t → d ∉ Deed.recorded → R [] s t
  grab : ∀ s : Session σ, R (r.grab s) s s.grab.1
  scan : ∀ (s : Session σ) (h : Heading), R (r.scan s h.step) s (s.scanning h.step).1
  turn : ∀ {s : Session σ}, s.endTurn.collided = false → R (r.turn s) s s.endTurn
  check : ∀ s : Session σ, R (r.check s) s s.checkCompletion

namespace Session

/-! ## What commands consist of -/

/-- A step that is barred only shows what is around the robot. -/
theorem move_barred {s : Session σ} {h : Heading} (closed : ¬ (Stride.mk s h).IsOpen) :
    StepsOf [.spend, .look] s (s.move h.step).1 := by
  have hspend : StepsOf [.spend, .look] s (s.onPlay fun p => { p with turns := p.turns + 1 }) :=
    (Step.spend s).steps (by decide)
  unfold move
  simp only
  split
  · exact hspend
  · rename_i inside
    split
    · exact hspend.trans ((Step.look _).steps (by decide))
    · rename_i way
      exfalso
      simp only [Bool.not_eq_true', Bool.not_eq_false] at inside
      exact closed ⟨inside, Bool.eq_false_iff.2 way⟩

/-- A scan ends its turn unless it is barred. -/
theorem scan_eq (s : Session σ) (step : Position) :
    (s.scan step).1 = if (s.scanning step).2.1 then (s.scanning step).1.endTurn else (s.scanning step).1 := by
  rcases hscan : scanAll (s.play.robot.scannerTiles step s.play.board.width s.play.board.height) s with
    ⟨t, through, found⟩
  simp only [scan, scanning, hscan]
  cases through with
  | false => rfl
  | true => rfl

/-- A laser command ends its turn after what it fires. -/
theorem perform_of_fires {s : Session σ} {c : Command} {o : Session σ × Reply} (h : s.fires c = some o) :
    s.perform c = (o.1.endTurn, .ok o.2) := by
  cases c with
  | laserDirection heading =>
    cases h
    rfl
  | laserTile p =>
    cases h
    rfl
  | _ => cases h

/-- A shot takes the steps of a laser. -/
theorem fires_steps {v : Visit σ} {o : Session σ × Reply} (fires : v.Fires o) :
    StepsOf Deed.ofLaser v.before.apart o.1 := by
  obtain ⟨s, c⟩ := v
  obtain ⟨allowed, hfires⟩ := fires
  cases c with
  | laserDirection heading =>
    cases hfires
    have armed : s.apart.IsArmed := isArmed_of_laser allowed (.inl rfl)
    exact fireDirection_steps armed heading.step
  | laserTile p =>
    cases hfires
    have armed : s.apart.IsArmed := isArmed_of_laser allowed (.inr rfl)
    exact fireTile_steps armed p
  | _ => cases hfires

end Session

namespace Recorder

open Session

variable {r : Recorder σ α}

theorem command_of_fires {s : Session σ} {c : Command} {o : Session σ × Reply} (h : s.fires c = some o) :
    r.command s c = r.turn o.1 := by
  cases c with
  | laserDirection heading =>
    cases h
    rfl
  | laserTile p =>
    cases h
    rfl
  | _ => cases h

omit [WordSource σ] in
theorem step_of_barred {s : Session σ} {h : Heading} (closed : ¬ (Stride.mk s h).IsOpen) : r.step s h.step = [] := by
  refine if_neg fun hopen => closed ?_
  simp only [Bool.and_eq_true, Bool.not_eq_true'] at hopen
  exact hopen.1

theorem visit_of_refused {v : Visit σ} (refused : v.command.kind ∉ v.before.availableFunctions) : r.visit v = [] :=
  if_neg refused

theorem visit_of_answered {v : Visit σ} {t : Session σ} {reply : Reply}
    (allowed : v.command.kind ∈ v.before.availableFunctions)
    (answered : v.before.apart.perform v.command = (t, .ok reply)) :
    r.visit v = r.command v.before.apart v.command ++ r.check t := by
  rw [visit, if_pos allowed, answered]

theorem visit_of_failed {v : Visit σ} {t : Session σ} {failure : EntryFailure}
    (failed : v.before.apart.perform v.command = (t, .error failure)) : r.visit v = [] := by
  unfold visit
  rw [failed]
  split <;> rfl

namespace Tracks

variable {R : List α → Session σ → Session σ → Prop} (k : r.Tracks R)

include k

theorem before {as : List α} {s t u : Session σ} (h : R [] s t) (g : R as t u) : R as s u := k.trans h g

theorem after {as : List α} {s t u : Session σ} (h : R as s t) (g : R [] t u) : R as s u := by
  have hsum := k.trans h g
  rwa [List.append_nil] at hsum

theorem refl (s : Session σ) : R [] s s := k.records rfl rfl

theorem steps {ds : List Deed} {s t : Session σ} (h : StepsOf ds s t)
    (plain : ∀ d ∈ ds, d ∉ Deed.recorded := by decide) : R [] s t := by
  induction h with
  | refl => exact k.refl s
  | tail _ hstep ih =>
    obtain ⟨d, hd, hstep⟩ := hstep
    exact k.after ih (k.step hstep (plain d hd))

/-- The robot arrives, grabs or does not, and its turn ends. -/
theorem move {s : Session σ} {h : Heading} (clear : (s.move h.step).1.collided = false) :
    R (r.step s h.step) s (s.move h.step).1 := by
  by_cases opens : (Stride.mk s h).IsOpen
  · obtain ⟨hmeets, hmove⟩ := move_of_clear opens clear
    obtain ⟨inside, way⟩ := opens
    have hinside : s.play.board.inBounds (s.play.robot.position + h.step) = true := inside
    have hway : s.isBlocked (s.play.robot.position + h.step) = false := way
    have hspend : R [] s (s.onPlay fun p => { p with turns := p.turns + 1 }) := k.step (.spend s) (by decide)
    have harrive : R [] s (s.arrival h.step) := k.before hspend (k.step (.walk h inside way hmeets) (by decide))
    have hland : R (if (s.arrival h.step).play.robot.autoGrab && (s.arrival h.step).hasGrabbable then
        r.grab (s.arrival h.step) else []) (s.arrival h.step) (s.landing h.step) := by
      unfold landing
      split
      · exact k.grab _
      · exact k.refl _
    rw [hmove] at clear ⊢
    rw [Recorder.step, if_pos (by simp [hinside, hway, hmeets])]
    exact k.trans (k.before harrive hland) (k.turn clear)
  · rw [step_of_barred opens]
    exact k.steps (move_barred opens)

/-- A walk is recorded step by step. -/
theorem walk {hs : List Heading} {s : Session σ} (paved : Paved hs s) (clear : (walk hs s).collided = false) :
    R ((strides hs s).flatMap fun v => r.step v.before v.heading.step) s (Session.walk hs s) := by
  induction hs generalizing s with
  | nil => exact k.refl s
  | cons h hs ih =>
    have hfirst := (paved.clear clear ⟨s, h⟩ List.mem_cons_self).2
    exact k.trans (k.move hfirst) (ih paved.2.2 clear)

theorem look {s : Session σ} {h : Heading} (clear : (s.scan h.step).1.collided = false) :
    R (r.look s h.step) s (s.scan h.step).1 := by
  rw [scan_eq] at clear ⊢
  unfold Recorder.look
  by_cases through : (s.scanning h.step).2.1 = true
  · rw [if_pos through] at clear ⊢
    rw [if_pos through]
    exact k.trans (k.scan s h) (k.turn clear)
  · rw [if_neg through, if_neg through]
    exact k.trans (k.scan s h) (k.refl _)

theorem search {s : Session σ} (hs : s.WellFormed) (apart : s.collided = false)
    (clear : s.searchAll.1.collided = false) : R (r.command s .searchAll) s s.searchAll.1 := by
  have hpausing : (s.pausing true).WellFormed := hs.step (.pause s true)
  obtain ⟨hwalk, hpaved, -, -⟩ := searchFrom_walk hpausing apart
  have hsearch : s.searchAll.1 = (Session.walk (s.pausing true).searchPath (s.pausing true)).pausing false := by
    rw [← hwalk]
    rfl
  rw [hsearch] at clear ⊢
  have hpause : R [] s (s.pausing true) := k.step (.pause s true) (by decide)
  exact k.after (k.before hpause (k.walk hpaved clear)) (k.step (.pause _ false) (by decide))

/-- A command that is carried out, enters no level and meets no enemy is tracked, if its shot is. -/
theorem perform {s : Session σ} {c : Command} (hs : s.WellFormed) (apart : s.collided = false)
    (stays : s.destination? c = none) (clear : (s.perform c).1.collided = false)
    (shot : ∀ o, s.fires c = some o → R [] s o.1) : R (r.command s c) s (s.perform c).1 := by
  cases c with
  | move heading =>
    simp only [Session.perform, Recorder.command] at clear ⊢
    by_cases finished : s.play.finished = true
    · simp only [finished, if_true]
      exact k.refl s
    · simp only [finished] at clear ⊢
      exact k.move clear
  | grab => exact k.trans (k.grab s) (k.turn clear)
  | scan heading => exact k.look clear
  | searchAll => exact k.search hs apart clear
  | setAutoGrab on => exact k.step (.autoGrab s on) (by decide)
  | laserDirection heading => exact k.before (shot _ rfl) (k.turn clear)
  | laserTile p => exact k.before (shot _ rfl) (k.turn clear)
  | openDoor wide => exact k.before (k.steps (turnDoor_steps s wide)) (k.turn clear)
  | skipLevel =>
    simp only [destination?] at stays
    split at stays
    · rename_i last
      simp only [Session.perform, if_pos last]
      exact k.refl s
    · cases stays
  | gotoLevel n =>
    simp only [destination?] at stays
    split at stays
    · cases stays
    · rename_i outside
      simp only [Session.perform, if_neg outside]
      exact k.refl s
  | println text => exact k.step (.print s text) (by decide)
  | eprintln text => exact k.step (.complain s text) (by decide)
  | panic message => exact k.step (.giveUp s) (by decide)

/-- So is a command that is executed, whether it is carried out or not. -/
theorem execute {v : Visit σ} (hs : v.before.WellFormed) (stays : v.Stays)
    (shot : ∀ o, v.Fires o → R [] v.before.apart o.1) : R (r.visit v) v.before v.after := by
  obtain ⟨s, c⟩ := v
  obtain ⟨clear, noLoad⟩ := stays
  have happart : R [] s s.apart := k.records rfl rfl
  have hordered : s.apart.WellFormed := (invariant_wellFormed []).play (show s.apart.play = s.play from rfl) hs
  simp only [Visit.after, Visit.Fires] at clear noLoad shot ⊢
  by_cases allowed : c.kind ∈ s.availableFunctions
  · cases hd : s.destination? c with
    | some i =>
      -- a command that goes to a level and still stays has failed to load it
      obtain ⟨reply, hperform⟩ := perform_of_destination (s := s.apart) hd
      rcases hload : s.apart.load i with ⟨t, failure | _⟩
      · rw [enterLevel, hload] at hperform
        obtain ⟨-, hcredits, hplay⟩ := load_error hload
        rw [visit_of_failed (v := ⟨s, c⟩) hperform, execute_failed allowed hperform]
        exact k.records hplay hcredits
      · exact absurd hload (noLoad i t hd)
    | none =>
      obtain ⟨t, reply, hperform, -⟩ := perform_outcome (s := s.apart) allowed hd
      by_cases meets : t.collided = true
      · rw [execute_met allowed hperform meets] at clear
        exact absurd meets (Bool.eq_false_iff.1 clear)
      · have hclear : (s.apart.perform c).1.collided = false := by
          rw [hperform]
          exact Bool.eq_false_iff.2 meets
        have hacts := k.perform hordered rfl hd hclear fun o ho => shot o ⟨allowed, ho⟩
        rw [hperform] at hacts
        rw [visit_of_answered (v := ⟨s, c⟩) allowed hperform, execute_answered allowed hperform (Bool.eq_false_iff.2 meets)]
        exact k.after (k.trans (k.before happart hacts) (k.check t)) (k.records rfl rfl)
  · rw [visit_of_refused (v := ⟨s, c⟩) allowed, execute_refused allowed]
    exact k.records rfl rfl

end Tracks

end Recorder

end ScriptedRobot
