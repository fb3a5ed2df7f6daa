import ScriptedRobot.Proofs.Board.Unnamed
import ScriptedRobot.Session.Batch

/-!
# Relations that commands keep

`Congruence` says of a relation between sessions that the game finds the same in sessions in relation, what named the
enemies' strategies apart, and that the small changes that commands are made of keep it. Then every command keeps it
and is answered alike in both sessions (`Congruence.execute`), and so does every script (`Congruence.runScript`).
-/

namespace ScriptedRobot

/-- The entry without what named the enemies' strategies, and without what was noted about its files. -/
def LevelEntry.unnamed (e : LevelEntry) : LevelEntry :=
  { e with
    spec := e.spec.unnamed
    enemies := e.enemies.map Enemy.unnamed
    patterns := {}
    boardNotes := []
    itemNotes := [] }

/-- The level as it is played, without what named the enemies' strategies. -/
def Play.unnamed (p : Play) : Play := { p with entry := p.entry.unnamed, board := p.board.unnamed }

/-- What does not look at names is the same of levels that are alike but for these. -/
theorem Play.look {α : Type} (f : Play → α) {p q : Play} (h : p.unnamed = q.unnamed)
    (blind : ∀ p : Play, f p.unnamed = f p) : f p = f q := by
  rw [← blind, h, blind]

namespace Session

variable {σ : Type}

/-- Two outcomes that answer the same, with sessions in relation. -/
structure Matched (R : Session σ → Session σ → Prop) {α : Type} (o o' : Session σ × α) : Prop where
  session : R o.1 o'.1
  answer : o.2 = o'.2

/-- A relation between sessions that is kept by everything that commands are made of. -/
structure Congruence [WordSource σ] (R : Session σ → Session σ → Prop) : Prop where
  /-- In sessions in relation the game finds the same. -/
  play : ∀ {s t : Session σ}, R s t → s.play.unnamed = t.play.unnamed
  /-- There are as many levels to go to. -/
  levels : ∀ {s t : Session σ}, R s t → s.campaign.levels.length = t.campaign.levels.length
  /-- In both the robot has met an enemy, or in neither. -/
  collided : ∀ {s t : Session σ}, R s t → s.collided = t.collided
  /-- A new command begins. -/
  apart : ∀ {s t : Session σ}, R s t → R { s with collided := false } { t with collided := false }
  /-- Something changes about the level as it is played, and the change does not look at names. -/
  change : ∀ {s t : Session σ}, R s t → ∀ f : Play → Play, (∀ p, (f p).unnamed = f p.unnamed) →
    R (s.onPlay f) (t.onPlay f)
  /-- Credits are paid. -/
  pay : ∀ {s t : Session σ}, R s t → ∀ n : Int,
    R { s with credits := s.credits + n } { t with credits := t.credits + n }
  /-- Something is reported. -/
  report : ∀ {s t : Session σ}, R s t → ∀ e, R (s.report e) (t.report e)
  /-- Something is noted. -/
  note : ∀ {s t : Session σ}, R s t → ∀ entries, R (s.note entries) (t.note entries)
  /-- The enemies move. -/
  moveEnemies : ∀ {s t : Session σ}, R s t → R s.moveEnemies t.moveEnemies
  /-- The level begins again. -/
  collide : ∀ {s t : Session σ}, R s t → R s.collide t.collide
  /-- Another level is entered. -/
  load : ∀ {s t : Session σ}, R s t → ∀ index, Matched R (s.load index) (t.load index)
  /-- A batch begins. -/
  opened : ∀ {s t : Session σ}, R s t → R { s with events := [] } { t with events := [] }
  /-- A batch ends. -/
  endBatch : ∀ {s t : Session σ}, R s t → ∀ result, R (s.endBatch result) (t.endBatch result)

section Matching

variable {R : Session σ → Session σ → Prop} {s t u v : Session σ}

theorem Matched.of {α : Type} (h : R s t) (a : α) : Matched R (s, a) (t, a) := ⟨h, rfl⟩

theorem Matched.ite {α : Type} {c : Prop} [Decidable c] {o o' p p' : Session σ × α} (yes : Matched R o o')
    (no : Matched R p p') : Matched R (if c then o else p) (if c then o' else p') := by
  by_cases hc : c
  · rw [if_pos hc, if_pos hc]
    exact yes
  · rw [if_neg hc, if_neg hc]
    exact no

theorem related_ite {c : Prop} [Decidable c] (yes : R s t) (no : R u v) :
    R (if c then s else u) (if c then t else v) := by
  by_cases hc : c
  · rw [if_pos hc, if_pos hc]
    exact yes
  · rw [if_neg hc, if_neg hc]
    exact no

end Matching

namespace Congruence

variable [WordSource σ] {R : Session σ → Session σ → Prop} (k : Congruence R) {s t : Session σ}

include k

/-! ## What the game looks at -/

/-- What does not look at names is the same in both sessions. -/
theorem look {α : Type} (f : Play → α) (h : R s t) (blind : ∀ p : Play, f p.unnamed = f p) : f s.play = f t.play :=
  Play.look f (k.play h) blind

theorem robot (h : R s t) : s.play.robot = t.play.robot := k.look (·.robot) h fun _ => rfl

theorem items (h : R s t) : s.play.items = t.play.items := k.look (·.items) h fun _ => rfl

theorem finished (h : R s t) : s.play.finished = t.play.finished := k.look (·.finished) h fun _ => rfl

theorem level (h : R s t) : s.level = t.level := k.look (·.entry.index) h fun _ => rfl

theorem name (h : R s t) : s.spec.name = t.spec.name := k.look (·.entry.spec.name) h fun _ => rfl

theorem achievement (h : R s t) : s.achievement = t.achievement := by
  have htext : s.spec.texts.achievement = t.spec.texts.achievement :=
    k.look (·.entry.spec.texts.achievement) h fun _ => rfl
  rw [Session.achievement, Session.achievement, htext]

theorem hasEnemies (h : R s t) : s.hasEnemies = t.hasEnemies := by
  rw [Session.hasEnemies, Session.hasEnemies, k.level h]

theorem inBounds (h : R s t) (p : Position) : s.play.board.inBounds p = t.play.board.inBounds p :=
  k.look (·.board.inBounds p) h fun _ => rfl

theorem isBlocked (h : R s t) (p : Position) : s.isBlocked p = t.isBlocked p :=
  k.look (fun play => play.board.isBlockedUnless play.removed.has p) h fun _ => rfl

theorem enemyAt? (h : R s t) (p : Position) : s.play.board.enemyAt? p = t.play.board.enemyAt? p :=
  k.look (·.board.enemyAt? p) h fun play => play.board.enemyAt?_unnamed p

theorem meetsEnemy (h : R s t) : s.meetsEnemy = t.meetsEnemy := by
  rw [Session.meetsEnemy, Session.meetsEnemy, k.hasEnemies h, k.robot h, Board.isOccupied, k.enemyAt? h,
    Board.isOccupied]

theorem isComplete (h : R s t) : s.isComplete = t.isComplete :=
  k.look (fun play => ({ s with play := play } : Session σ).isComplete) h fun _ => rfl

theorem availableFunctions (h : R s t) : s.availableFunctions = t.availableFunctions := by
  rw [Session.availableFunctions, Session.availableFunctions, k.level h, k.robot h]

theorem reach (h : R s t) : s.reach = t.reach :=
  k.look (fun play => play.robot.grabberTiles play.board.width play.board.height) h fun _ => rfl

theorem hasGrabbable (h : R s t) : s.hasGrabbable = t.hasGrabbable :=
  k.look (fun play => ({ s with play := play } : Session σ).hasGrabbable) h fun _ => rfl

theorem laserLength (h : R s t) : s.laserLength = t.laserLength :=
  k.look (fun play => ({ s with play := play } : Session σ).laserLength) h fun _ => rfl

theorem atEdge (h : R s t) (step : Position) : s.atEdge step = t.atEdge step := by
  rw [Session.atEdge, Session.atEdge, k.robot h]

theorem sweepDone (h : R s t) (toRight : Bool) : s.sweepDone toRight = t.sweepDone toRight :=
  k.look (fun play => ({ s with play := play } : Session σ).sweepDone toRight) h fun _ => rfl

theorem sweepStep? (h : R s t) (toRight : Bool) : s.sweepStep? toRight = t.sweepStep? toRight := by
  simp only [Session.sweepStep?, k.robot h, k.inBounds h, k.isBlocked h]

/-! ## Small changes -/

theorem onBoard {f : Board → Board} (h : R s t) (blind : ∀ b, (f b).unnamed = f b.unnamed) :
    R (s.onBoard f) (t.onBoard f) :=
  k.change h _ fun p => by simp only [Play.unnamed, blind]

theorem onRobot (h : R s t) (f : Robot → Robot) : R (s.onRobot f) (t.onRobot f) := k.change h _ fun _ => by rfl

theorem tickStatus (h : R s t) : R s.tickStatus t.tickStatus := k.change h _ fun _ => by rfl

theorem stepOnto (h : R s t) (p : Position) : R (s.stepOnto p) (t.stepOnto p) :=
  k.onBoard (k.onRobot h _) fun b => by
    rw [Board.unnamed_revealAround, Board.unnamed_visit]

theorem finish (h : R s t) : R s.finish t.finish := by
  have hdiscovered : s.play.discovered = t.play.discovered := k.look (·.discovered) h fun _ => rfl
  have hdone := k.change h (fun p => { p with finished := true }) fun _ => rfl
  have hreported := k.report (k.pay hdone s.play.discovered) (.levelComplete s.level s.spec.name)
  have hnoted := k.note hreported [⟨.info, .session, s!"Level {s.level + 1} complete"⟩]
  have hfinish : t.finish = (({ t.onPlay fun p => { p with finished := true } with
      credits := t.credits + (s.play.discovered : Int) } : Session σ).report
        (.levelComplete s.level s.spec.name)).note [⟨.info, .session, s!"Level {s.level + 1} complete"⟩] := by
    rw [hdiscovered, k.level h, k.name h]
    rfl
  rw [hfinish]
  exact hnoted

theorem checkCompletion (h : R s t) : R s.checkCompletion t.checkCompletion := by
  unfold Session.checkCompletion
  rw [k.finished h, k.isComplete h]
  exact related_ite h (related_ite (k.finish h) h)

/-! ## Grabbing, doors and scans -/

theorem applyItem (h : R s t) (i : Item) : R (s.applyItem i) (t.applyItem i) := by
  have hpaid := k.pay (k.onRobot h (equip · i)) (i.capabilities.creditsValue.getD 0)
  unfold Session.applyItem
  cases i.capabilities.timeSlow with
  | none => exact hpaid
  | some duration => exact related_ite hpaid (k.change hpaid _ fun _ => by rfl)

theorem collectAll (h : R s t) (ps : List Position) :
    Matched R (Session.collectAll ps s) (Session.collectAll ps t) := by
  induction ps generalizing s t with
  | nil => exact .of h _
  | cons p ps ih =>
    unfold Session.collectAll
    rw [k.items h]
    rcases t.play.items.collectAt p with ⟨found, items⟩
    cases found with
    | none => exact ih h
    | some i =>
      have hrest := ih (k.applyItem (k.change h (fun play => { play with items := items }) fun _ => rfl) i)
      exact ⟨hrest.session, congrArg (i :: ·) hrest.answer⟩

theorem claim (h : R s t) (ps : List Position) : Matched R (s.claim ps) (t.claim ps) := by
  have hcount : s.play.board.countHidden ps = t.play.board.countHidden ps :=
    k.look (·.board.countHidden ps) h fun play => play.board.countHidden_unnamed ps
  have hclaimed := k.change h (fun p =>
    { p with board := p.board.revealAll ps, discovered := p.discovered + t.play.board.countHidden ps }) fun p => by
      rw [Play.unnamed, Play.unnamed, Board.unnamed_revealAll]
  have hincome := k.look (·.board.income) hclaimed fun _ => rfl
  simp only [Session.claim, hcount, hincome]
  exact ⟨k.pay hclaimed _, rfl⟩

theorem grab (h : R s t) : Matched R s.grab t.grab := by
  have hfound := k.collectAll h t.reach
  have hclaimed := k.claim hfound.session (Session.collectAll t.reach t).1.reach
  simp only [Session.grab, k.reach h, k.reach hfound.session, hfound.answer, hclaimed.answer]
  exact ⟨related_ite hclaimed.session (k.report hclaimed.session _), rfl⟩

theorem turnDoor (h : R s t) (wide : Bool) : Matched R (s.turnDoor wide) (t.turnDoor wide) := by
  have hdoor : s.play.board.isDoor = t.play.board.isDoor := k.look (·.board.isDoor) h fun _ => rfl
  have hopen : s.play.board.isDoorOpen = t.play.board.isDoorOpen := k.look (·.board.isDoorOpen) h fun _ => rfl
  unfold Session.turnDoor
  rw [k.robot h, hdoor, hopen]
  cases (doorTiles t.play.robot.position).find? t.play.board.isDoor with
  | none => exact .of h _
  | some door =>
    refine .ite (.of h _) (.of (k.onBoard h fun b => ?_) _)
    cases wide with
    | true => exact b.unnamed_openDoor door
    | false => exact b.unnamed_closeDoor door

theorem scanAll (h : R s t) (ps : List Position) :
    Matched R (Session.scanAll ps s) (Session.scanAll ps t) := by
  induction ps generalizing s t with
  | nil => exact .of h _
  | cons p ps ih =>
    have hhidden : s.play.board.isHidden p = t.play.board.isHidden p := k.look (·.board.isHidden p) h fun _ => rfl
    unfold Session.scanAll
    rw [k.isBlocked h, hhidden]
    refine .ite (.of h _) ?_
    have hrest := ih (k.change h (fun play =>
      { play with
        board := play.board.reveal p
        discovered := play.discovered + if t.play.board.isHidden p then 1 else 0 }) fun play => by
          rw [Play.unnamed, Play.unnamed, Board.unnamed_reveal])
    exact ⟨hrest.session, congrArg (fun answer => (answer.1, t.play.board.isHidden p || answer.2)) hrest.answer⟩

/-! ## Lasers -/

/-- A laser hits something in both sessions or in neither. -/
theorem laserHit (h : R s t) (p : Position) :
    (s.laserHit p = none ∧ t.laserHit p = none) ∨
      ∃ o o', s.laserHit p = some o ∧ t.laserHit p = some o' ∧ Matched R o o' := by
  unfold Session.laserHit
  rw [k.enemyAt? h, k.isBlocked h]
  cases t.play.board.enemyAt? p with
  | some i => exact .inr ⟨_, _, rfl, rfl, .of (k.change h _ fun _ => by rfl) _⟩
  | none =>
    by_cases hblocked : t.isBlocked p = true
    · simp only [if_pos hblocked]
      exact .inr ⟨_, _, rfl, rfl, .of (k.change h _ fun _ => by rfl) _⟩
    · simp only [if_neg hblocked]
      exact .inl ⟨trivial, trivial⟩

theorem laserFrom (h : R s t) (step : Position) (count : Nat) (p : Position) :
    Matched R (s.laserFrom step count p) (t.laserFrom step count p) := by
  induction count generalizing p with
  | zero => exact .of h _
  | succ count ih =>
    simp only [Session.laserFrom, k.inBounds h]
    refine .ite (.of h _) ?_
    rcases k.laserHit h (p + step) with ⟨hs, ht⟩ | ⟨o, o', hs, ht, hmatched⟩
    · rw [hs, ht]
      exact ih (p + step)
    · rw [hs, ht]
      exact hmatched

theorem fireDirection (h : R s t) (step : Position) :
    Matched R (s.fireDirection step) (t.fireDirection step) := by
  unfold Session.fireDirection
  rw [k.laserLength h, k.robot h]
  exact k.laserFrom h step _ _

theorem fireTile (h : R s t) (target : Position) : Matched R (s.fireTile target) (t.fireTile target) := by
  unfold Session.fireTile
  rw [k.inBounds h]
  refine .ite (.of h _) ?_
  rcases k.laserHit h target with ⟨hs, ht⟩ | ⟨o, o', hs, ht, hmatched⟩
  · rw [hs, ht]
    exact .of h _
  · rw [hs, ht]
    exact hmatched

/-! ## Turns -/

theorem endTurn (h : R s t) : R s.endTurn t.endTurn := by
  have hpaused : s.play.enemiesPaused = t.play.enemiesPaused := k.look (·.enemiesPaused) h fun _ => rfl
  have hmoved := k.moveEnemies h
  unfold Session.endTurn
  rw [k.hasEnemies h, hpaused]
  refine related_ite ?_ (k.tickStatus h)
  simp only [k.meetsEnemy hmoved]
  exact related_ite (k.collide hmoved) (k.tickStatus hmoved)

theorem scan (h : R s t) (step : Position) : Matched R (s.scan step) (t.scan step) := by
  have htiles : s.play.robot.scannerTiles step s.play.board.width s.play.board.height =
      t.play.robot.scannerTiles step t.play.board.width t.play.board.height :=
    k.look (fun play => play.robot.scannerTiles step play.board.width play.board.height) h fun _ => rfl
  have hscan := k.scanAll h (t.play.robot.scannerTiles step t.play.board.width t.play.board.height)
  simp only [Session.scan, htiles]
  revert hscan
  rcases Session.scanAll _ s with ⟨u, through, found⟩
  rcases Session.scanAll _ t with ⟨u', through', found'⟩
  rintro ⟨hsession, hanswer⟩
  cases hanswer
  cases through with
  | false => exact .of hsession _
  | true => exact .of (k.endTurn hsession) _

theorem move (h : R s t) (step : Position) : Matched R (s.move step) (t.move step) := by
  have hspent := k.change h (fun p => { p with turns := p.turns + 1 }) fun _ => rfl
  simp only [Session.move, k.robot h]
  generalize s.onPlay _ = s at hspent ⊢
  generalize t.onPlay _ = t' at hspent ⊢
  rw [k.inBounds hspent, k.isBlocked hspent]
  refine .ite (.of hspent _) (.ite (.of (k.onBoard hspent fun b => b.unnamed_revealAround _) _) ?_)
  have hstepped := k.stepOnto hspent (t.play.robot.position + step)
  rw [k.meetsEnemy hstepped, k.robot hstepped, k.hasGrabbable hstepped]
  refine .ite (.of (k.collide hstepped) _) ?_
  generalize s.stepOnto _ = u at hstepped ⊢
  generalize t'.stepOnto _ = u' at hstepped ⊢
  have hended : R (if (u'.play.robot.autoGrab && u'.hasGrabbable) = true then u.grab.1 else u).endTurn
      (if (u'.play.robot.autoGrab && u'.hasGrabbable) = true then u'.grab.1 else u').endTurn :=
    k.endTurn (related_ite (k.grab hstepped).session hstepped)
  exact ⟨hended, by rw [k.collided hended]⟩

theorem homeAlong (h : R s t) (step : Position) (left : Nat) :
    Matched R (Session.homeAlong step left s) (Session.homeAlong step left t) := by
  induction left generalizing s t with
  | zero => exact .of h _
  | succ left ih =>
    have hmoved := (k.move h step).session
    simp only [Session.homeAlong, k.atEdge h, k.isBlocked h, k.robot h, k.collided hmoved]
    exact .ite (.of h _) (.ite (.of h _) (.ite (.of hmoved _) (ih hmoved)))

theorem known (h : R s t) : s.play.board.known = t.play.board.known := k.look (·.board.known) h fun _ => rfl

theorem sweep (h : R s t) (before : Nat) (toRight : Bool) (left : Nat) :
    Matched R (Session.sweep before toRight left s) (Session.sweep before toRight left t) := by
  induction left generalizing s t toRight with
  | zero =>
    simp only [Session.sweep, k.sweepDone h, k.known h]
    exact .ite (.of h _) (.of h _)
  | succ left ih =>
    simp only [Session.sweep, k.sweepDone h, k.known h, k.sweepStep? h]
    refine .ite (.of h _) ?_
    cases t.sweepStep? toRight with
    | none => exact .of h _
    | some next =>
      obtain ⟨step, onward⟩ := next
      have hmoved := (k.move h step).session
      simp only [k.collided hmoved]
      exact .ite (.of hmoved _) (ih hmoved onward)

theorem searchFrom (h : R s t) : Matched R s.searchFrom t.searchFrom := by
  have hup := k.homeAlong h Heading.up.step homingLimit
  simp only [Session.searchFrom, k.known h]
  revert hup
  rcases Session.homeAlong _ _ s with ⟨u, reply | left⟩ <;>
    rcases Session.homeAlong _ _ t with ⟨u', reply' | left'⟩ <;> rintro ⟨hsession, hanswer⟩ <;> cases hanswer
  · exact .of hsession _
  · have hleft := k.homeAlong hsession Heading.left.step left
    revert hleft
    simp only
    rcases Session.homeAlong _ _ u with ⟨v, reply | rest⟩ <;>
      rcases Session.homeAlong _ _ u' with ⟨v', reply' | rest'⟩ <;> rintro ⟨hsession, hanswer⟩ <;> cases hanswer
    · exact .of hsession _
    · exact k.sweep hsession _ _ _

theorem searchAll (h : R s t) : Matched R s.searchAll t.searchAll := by
  have hsearch := k.searchFrom (k.change h (fun p => { p with enemiesPaused := true }) fun _ => rfl)
  simp only [Session.searchAll, hsearch.answer]
  exact .of (k.change hsearch.session _ fun _ => by rfl) _

/-! ## Commands -/

theorem enterLevel (h : R s t) (index : Int) (reply : Reply) :
    Matched R (s.enterLevel index reply) (t.enterLevel index reply) := by
  have hload := k.load h index
  unfold Session.enterLevel
  revert hload
  rcases s.load index with ⟨u, failure | _⟩ <;> rcases t.load index with ⟨u', failure' | _⟩ <;>
    rintro ⟨hsession, hanswer⟩ <;> cases hanswer
  · exact .of hsession _
  · exact .of hsession _

theorem perform (h : R s t) (c : Command) : Matched R (s.perform c) (t.perform c) := by
  have answered : ∀ {o o' : Session σ × Reply}, Matched R o o' →
      Matched R (o.1, (Except.ok o.2 : Except EntryFailure Reply)) (o'.1, .ok o'.2) :=
    fun hmatched => ⟨hmatched.session, congrArg Except.ok hmatched.answer⟩
  have thenEndTurn : ∀ {o o' : Session σ × Reply}, Matched R o o' →
      Matched R (o.1.endTurn, (Except.ok o.2 : Except EntryFailure Reply)) (o'.1.endTurn, .ok o'.2) :=
    fun hmatched => ⟨k.endTurn hmatched.session, congrArg Except.ok hmatched.answer⟩
  cases c with
  | move heading =>
    simp only [Session.perform, k.finished h]
    exact .ite (.of h _) (answered (k.move h _))
  | grab => exact thenEndTurn (k.grab h)
  | scan heading => exact answered (k.scan h _)
  | searchAll => exact answered (k.searchAll h)
  | setAutoGrab on => exact .of (k.onRobot h _) _
  | laserDirection heading => exact thenEndTurn (k.fireDirection h _)
  | laserTile p => exact thenEndTurn (k.fireTile h p)
  | openDoor wide => exact thenEndTurn (k.turnDoor h wide)
  | skipLevel =>
    simp only [Session.perform, k.level h, k.levels h]
    exact .ite (.of h _) (k.enterLevel h _ _)
  | gotoLevel n =>
    simp only [Session.perform, k.levels h]
    exact .ite (k.enterLevel h _ _) (.of h _)
  | println text => exact .of (k.change h _ fun _ => by rfl) _
  | eprintln text => exact .of (k.change h _ fun _ => by rfl) _
  | panic message => exact .of (k.change h _ fun _ => by rfl) _

/-- Every command keeps the relation and is answered alike. -/
theorem execute (h : R s t) (c : Command) : Matched R (s.execute c) (t.execute c) := by
  have hapart := k.apart h
  have hperform := k.perform hapart c
  unfold Session.execute
  simp only [k.availableFunctions hapart]
  refine .ite (.of (k.report hapart _) _) ?_
  revert hperform
  rcases Session.perform _ c with ⟨u, failure | reply⟩ <;>
    rcases Session.perform _ c with ⟨u', failure' | reply'⟩ <;> rintro ⟨hsession, hanswer⟩ <;> cases hanswer
  · exact .of hsession _
  · have hcollided : u.collided = u'.collided := k.collided hsession
    simp only [hcollided]
    exact .ite (.of (k.report hsession _) _) (.of (k.report (k.checkCompletion hsession) _) _)

/-! ## Batches -/

theorem runCommands (h : R s t) (commands : List Command) (r : BatchReport) :
    Matched R (Session.runCommands commands s r) (Session.runCommands commands t r) := by
  induction commands generalizing s t r with
  | nil => exact .of h _
  | cons c rest ih =>
    have hexecute := k.execute h c
    simp only [Session.runCommands, k.finished h]
    revert hexecute
    rcases s.execute c with ⟨u, failure | reply⟩ <;>
      rcases t.execute c with ⟨u', failure' | reply'⟩ <;> rintro ⟨hsession, hanswer⟩ <;> cases hanswer
    · exact .of hsession _
    · have hcollided : u.collided = u'.collided := k.collided hsession
      have hfinished : u.play.finished = u'.play.finished := k.finished hsession
      have hachievement : u.achievement = u'.achievement := k.achievement hsession
      simp only [hcollided, hfinished, hachievement]
      exact .ite (.of hsession _) (.ite (.of (k.report hsession _) _) (.ite (.of hsession _) (ih hsession _)))

theorem runBatch (h : R s t) (commands : List Command) : Matched R (s.runBatch commands) (t.runBatch commands) := by
  have hopened := k.opened h
  have hrun := k.runCommands hopened commands { commands := commands }
  unfold Session.runBatch
  refine .ite (.of (k.endBatch hopened _) _) ?_
  revert hrun
  rcases Session.runCommands commands _ _ with ⟨u, failure | r⟩ <;>
    rcases Session.runCommands commands _ _ with ⟨u', failure' | r'⟩ <;>
    rintro ⟨hsession, hanswer⟩ <;> cases hanswer
  · exact .of hsession _
  · exact .of (k.endBatch hsession _) _

/-- Every script keeps the relation and is answered alike. -/
theorem runScript (h : R s t) (code : String) : Matched R (s.runScript code) (t.runScript code) := by
  unfold Session.runScript
  cases Script.read code.toList with
  | error fault => exact .of h _
  | ok commands =>
    have hrun := k.runBatch h commands
    exact ⟨hrun.session, congrArg (Except.mapError BatchFailure.entry) hrun.answer⟩

end Congruence

end Session

end ScriptedRobot
