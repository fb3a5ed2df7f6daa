import ScriptedRobot.Proofs.Session.Reachable

/-!
# A reset takes the level back to its entry

`SinceEntry` follows a session from the entering of a level on, for as long as no level is entered
again. No command touches what the level was entered with, so a reset, however many came before it,
leads back to where the level was entered; only random hazards are drawn anew.
-/

namespace ScriptedRobot.Session

variable {σ : Type} [WordSource σ]

/-- The level has just been entered with what its files say, the robot and the credits so far. -/
structure AtEntry (s : Session σ) : Prop where
  prepared : s.play.entry.Prepared s.campaign
  credits : s.play.entry.credits = s.credits
  begun : s.Begun

/-- The first session has just entered its level, and the second one has come from it since, without
entering a level again. -/
inductive SinceEntry : Session σ → Session σ → Prop where
  /-- A session starts by entering a level. -/
  | started {campaign : Campaign} {g : σ} {index : Int} {s : Session σ}
      (starts : (start campaign g index).1 = .ok s) : SinceEntry s s
  /-- A command enters a level. -/
  | entered {s t : Session σ} {c : Command} {i : Int} (goes : s.destination? c = some i)
      (load : s.apart.load i = (t, .ok ())) : SinceEntry t (s.execute c).1
  /-- A command enters no level. -/
  | command {s t : Session σ} {c : Command} (h : SinceEntry s t)
      (stays : ∀ i u, t.destination? c = some i → t.apart.load i ≠ (u, .ok ())) :
      SinceEntry s (t.execute c).1
  /-- Only what is recorded about the session changes. -/
  | records {s t u : Session σ} (h : SinceEntry s t) (campaign : u.campaign = t.campaign)
      (play : u.play = t.play) (credits : u.credits = t.credits) : SinceEntry s u

/-- A level that loads has just been entered. -/
theorem atEntry_of_load {s t : Session σ} {i : Int} (h : s.load i = (t, .ok ())) : t.AtEntry := by
  obtain ⟨-, -, hprepared, -, hcredits, hb⟩ := load_ok h
  exact ⟨hprepared, hcredits, _, hb⟩

theorem SinceEntry.atEntry {s t : Session σ} (h : SinceEntry s t) : s.AtEntry := by
  induction h with
  | started starts =>
    obtain ⟨hc, hprepared, -, hcredits, hb⟩ := start_ok starts
    rw [← hc] at hprepared
    exact ⟨hprepared, hcredits, _, hb⟩
  | entered _ load => exact atEntry_of_load load
  | command _ _ ih => exact ih
  | records _ _ _ _ ih => exact ih

/-- A command that enters no level leaves the campaign and what the level was entered with as they
are, even if the level is reset. -/
theorem execute_entry {s : Session σ} {c : Command}
    (stays : ∀ i u, s.destination? c = some i → s.apart.load i ≠ (u, .ok ())) :
    (s.execute c).1.campaign = s.campaign ∧ (s.execute c).1.play.entry = s.play.entry := by
  have heffect := execute_effect s c
  generalize s.execute c = outcome at heffect ⊢
  cases heffect with
  | refused _ => exact ⟨rfl, rfl⟩
  | failed _ load =>
    obtain ⟨hc, -, hp⟩ := load_error load
    exact ⟨hc, congrArg Play.entry hp⟩
  | entered goes load => exact absurd load (stays _ _ goes)
  | settled _ _ steps =>
    have hp := Steps.progress (steps.steps.trans (checkCompletion_steps _))
    exact ⟨hp.campaign, hp.entry⟩
  | met _ _ steps met =>
    -- the reset begins the level from the entry it finds, which no step has touched
    have hp := steps.steps.progress.trans met.progress
    exact ⟨hp.campaign, hp.entry⟩

theorem SinceEntry.entry {s t : Session σ} (h : SinceEntry s t) :
    t.campaign = s.campaign ∧ t.play.entry = s.play.entry := by
  induction h with
  | started _ => exact ⟨rfl, rfl⟩
  | @entered s t c i goes load =>
    obtain ⟨r, he⟩ := execute_loads goes load
    rw [he]
    have hp := (checkCompletion_steps t).progress
    exact ⟨hp.campaign, hp.entry⟩
  | command _ stays ih =>
    obtain ⟨hc, he⟩ := execute_entry stays
    exact ⟨hc.trans ih.1, he.trans ih.2⟩
  | records _ campaign play _ ih => exact ⟨campaign.trans ih.1, (congrArg Play.entry play).trans ih.2⟩

/-- Beginning a level twice gives the same but for the random hazards, and the same where it has none. -/
theorem begin_again (e : LevelEntry) (g g' : σ) :
    (e.begin g').1 = { (e.begin g).1 with board := (e.begin g').1.board } ∧
      (¬ e.spec.Hazardous → (e.begin g').1.board = (e.begin g).1.board) := by
  refine ⟨rfl, ?_⟩
  intro calm
  have hsetUp : (Board.setUp e.spec e.enemies e.patterns g').1 =
      (Board.setUp e.spec e.enemies e.patterns g).1 := by
    simp only [Board.setUp, Board.addHazards_eq calm]
  rw [LevelEntry.begin_board, LevelEntry.begin_board, hsetUp]

/-- A reset takes the level back to its entry. When robot and enemy have met, everything about the level
and the credits are what they were right after the level was entered, except for the board, and the
board too where the level has no random hazards; and it is what entering the level again gives, its
files read once more, with the robot and the credits of the entry. -/
theorem collision_restores_entry {s t : Session σ} {c : Command} (h : SinceEntry s t)
    (meets : (t.execute c).1.collided = true) :
    (t.execute c).1.campaign = s.campaign ∧
      (t.execute c).1.credits = s.credits ∧
      (t.execute c).1.play = { s.play with board := (t.execute c).1.play.board } ∧
      (t.execute c).1.play.robot.autoGrab = false ∧
      (¬ s.spec.Hazardous → (t.execute c).1.play.board = s.play.board) ∧
      ∃ g notes, s.campaign.enter s.level (some s.play.robot) s.credits g =
        (.ok (t.execute c).1.play, (t.execute c).1.rng, notes) := by
  obtain ⟨hprepared, hcredits, g, hb⟩ := h.atEntry
  obtain ⟨hcampaign, hentry⟩ := h.entry
  obtain ⟨v, u, hsteps, hmet, he⟩ := (execute_effect t c).encounter meets
  have hp := hsteps.progress.trans hmet.progress
  have hue : u.play.entry = s.play.entry := hp.entry.trans hentry
  have huc : u.campaign = s.campaign := hp.campaign.trans hcampaign
  have hplay : (t.execute c).1.play = (s.play.entry.begin u.rng).1 := by
    rw [he, ← hue]
    rfl
  have hrobot : s.play.robot = s.play.entry.robot := congrArg Play.robot hb
  obtain ⟨hagain, hcalm⟩ := begin_again s.play.entry g u.rng
  refine ⟨?_, ?_, ?_, ?_, ?_, u.rng, (s.play.entry.begin u.rng).2.2, ?_⟩
  · rw [he, ← huc]
    rfl
  · rw [he, ← hcredits, ← hue]
    rfl
  · rw [hplay, hagain, ← hb]
  · rw [hplay]
    exact hprepared.valid.autoGrab
  · intro calm
    rw [hplay, hcalm calm, ← hb]
  · have hrng : (t.execute c).1.rng = (s.play.entry.begin u.rng).2.1 := by
      rw [he, ← hue]
      rfl
    rw [hplay, hrng, hrobot, ← hcredits]
    exact hprepared.enter u.rng

/-- What a robot does that waits for the enemy, is met, and goes on from the start. -/
def waiting : List Command := [.grab, .grab, .println "again", .setAutoGrab true, .grab]

/-- The courtyard after that, with the enemy beside the robot once more. -/
def waitedInCourtyard : Session Random.Twister :=
  waiting.foldl (fun s c => (s.execute c).1) inCourtyard

theorem collision_restores_entry_courtyard :
    waitedInCourtyard.play.printed = ["again"] ∧ waitedInCourtyard.play.robot.autoGrab = true ∧
      (waitedInCourtyard.execute .grab).1.collided = true ∧
      (waitedInCourtyard.execute .grab).1.play = inCourtyard.play := by
  have stays : ∀ {t : Session Random.Twister} {c : Command}, t.destination? c = none →
      ∀ i u, t.destination? c = some i → t.apart.load i ≠ (u, .ok ()) := by
    intro t c hnone i u hsome
    rw [hnone] at hsome
    cases hsome
  have since : SinceEntry inCourtyard waitedInCourtyard :=
    .command (.command (.command (.command (.command (.started inCourtyard_starts)
      (stays rfl)) (stays rfl)) (stays rfl)) (stays rfl)) (stays rfl)
  have meets : (waitedInCourtyard.execute .grab).1.collided = true := by decide +kernel
  have calm : ¬ inCourtyard.spec.Hazardous := fun h => nomatch h.1
  obtain ⟨-, -, hplay, -, hboard, -⟩ := collision_restores_entry since meets
  refine ⟨by decide +kernel, by decide +kernel, meets, ?_⟩
  rw [hplay, hboard calm]

end ScriptedRobot.Session
