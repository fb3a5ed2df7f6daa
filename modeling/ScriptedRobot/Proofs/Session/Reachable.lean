import ScriptedRobot.Proofs.Session.Effect
import ScriptedRobot.Proofs.Session.Entry
import ScriptedRobot.Proofs.Session.Progress
import ScriptedRobot.Random.Twister

/-!
# The sessions that a campaign can lead to

`Reachable` lists how a session comes about: it starts, it executes a command, its files are read anew,
its records are written. `Invariant` names what has to be shown for a property to hold of all of them:
it holds where a level begins, and every small step keeps it. Levels that are entered, and levels that
are reset, begin, so nothing more has to be said about them.
-/

namespace ScriptedRobot.Session

variable {σ : Type}

/-- The level being played is one of these, and the session has what that level says. -/
structure Grounded (levels : List LevelSpec) (s : Session σ) : Prop where
  /-- These are the campaign's levels. -/
  levels : s.campaign.levels = levels
  /-- The level was entered as one of them. -/
  entry : s.play.entry.Valid s.campaign
  /-- The level's flag says what completes it. -/
  rule : s.play.rule = s.spec.texts.completionFlag.map CompletionRule.ofFlag

/-- What stays grounded: the same entry of the same campaign, with the same rule. -/
theorem Grounded.of_eq {levels : List LevelSpec} {s t : Session σ} (h : Grounded levels s)
    (campaign : t.campaign = s.campaign) (entry : t.play.entry = s.play.entry)
    (rule : t.play.rule = s.play.rule) : Grounded levels t := by
  refine ⟨?_, ?_, ?_⟩
  · rw [campaign, h.levels]
  · rw [campaign, entry]
    exact h.entry
  · rw [rule, h.rule, spec, spec, entry]

theorem Grounded.progress {levels : List LevelSpec} {s t : Session σ} (h : Grounded levels s)
    (k : Progress s t) : Grounded levels t := h.of_eq k.campaign k.entry k.rule

theorem spec_withLoader (s : Session σ) (load : Loader) : (s.withLoader load).spec = s.spec := by
  simp only [withLoader, onPlay, spec, Campaign.refresh]
  split <;> rfl

theorem level_withLoader (s : Session σ) (load : Loader) : (s.withLoader load).level = s.level := by
  simp only [withLoader, onPlay, level, Campaign.refresh]
  split <;> rfl

theorem Grounded.reread {levels : List LevelSpec} {s : Session σ} (h : Grounded levels s) (load : Loader) :
    Grounded levels (s.withLoader load) := by
  refine ⟨h.levels, h.entry.refresh load, ?_⟩
  rw [spec_withLoader]
  exact h.rule

variable [WordSource σ]

/-- The level has just begun. -/
def Begun (s : Session σ) : Prop := ∃ g : σ, s.play = (s.play.entry.begin g).1

/-- The sessions that a list of levels can lead to. -/
inductive Reachable (levels : List LevelSpec) : Session σ → Prop where
  /-- A session starts. -/
  | start {campaign : Campaign} {g : σ} {index : Int} {s : Session σ} (own : campaign.levels = levels)
      (starts : (start campaign g index).1 = .ok s) : Reachable levels s
  /-- A command is executed. -/
  | command {s : Session σ} (h : Reachable levels s) (c : Command) : Reachable levels (s.execute c).1
  /-- The files of the level are read anew. -/
  | reread {s : Session σ} (h : Reachable levels s) (load : Loader) : Reachable levels (s.withLoader load)
  /-- Only what is recorded about the session changes. -/
  | records {s t : Session σ} (h : Reachable levels s) (campaign : t.campaign = s.campaign)
      (play : t.play = s.play) (credits : t.credits = s.credits) : Reachable levels t

/-! ## Levels that begin -/

theorem Grounded.begin {levels : List LevelSpec} {s t : Session σ} {g : σ} (h : Grounded levels s)
    (campaign : t.campaign = s.campaign) (play : t.play = (s.play.entry.begin g).1) :
    Grounded levels t ∧ t.Begun := by
  have hentry : t.play.entry = s.play.entry := by rw [play]; rfl
  refine ⟨⟨?_, ?_, ?_⟩, g, ?_⟩
  · rw [campaign, h.levels]
  · rw [campaign, hentry]
    exact h.entry
  · rw [spec, hentry, play]
    rfl
  · rw [hentry, play]

/-- A level that has been entered has begun. -/
theorem begun_of_enter {c : Campaign} {index : Int} {progress : Option Robot} {credits : Int} {g g' : σ}
    {play : Play} {notes : List Log.Entry} (h : c.enter index progress credits g = (.ok play, g', notes)) :
    play.entry.Prepared c ∧ play.entry.index = index ∧ play.entry.credits = credits ∧
      play.entry.robot = Robot.carrying play.entry.spec.start progress ∧ play = (play.entry.begin g).1 := by
  obtain ⟨e, he, hi, hc, hr, hb⟩ := LevelEntry.prepared_of_enter h
  have hplay : (e.begin g).1 = play := congrArg (·.1) hb
  have hentry : play.entry = e := by rw [← hplay]; rfl
  rw [hentry]
  exact ⟨he, hi, hc, hr, hplay.symm⟩

/-- A level that loads is entered with the progress and the credits so far. -/
theorem load_ok {s t : Session σ} {index : Int} (h : s.load index = (t, .ok ())) :
    t.campaign = s.campaign ∧ t.credits = s.credits ∧ t.play.entry.Prepared t.campaign ∧
      t.play.entry.index = index ∧ t.play.entry.credits = t.credits ∧
      t.play = (t.play.entry.begin s.rng).1 := by
  unfold load at h
  split at h
  · cases h
  · rename_i play g notes he
    cases h
    obtain ⟨hp, hi, hc, -, hb⟩ := begun_of_enter he
    exact ⟨rfl, rfl, hp, hi, hc, hb⟩

/-- The robot takes into a level what it carries and how far its tools reach. -/
theorem robot_of_load {s t : Session σ} {index : Int} (h : s.load index = (t, .ok ())) :
    t.play.entry.robot = Robot.carrying t.spec.start (some s.play.robot) := by
  unfold load at h
  split at h
  · cases h
  · rename_i play g notes he
    cases h
    obtain ⟨-, -, -, hrobot, -⟩ := begun_of_enter he
    exact hrobot

/-- A session starts with a fresh robot. -/
theorem robot_of_start {c : Campaign} {g : σ} {index : Int} {s : Session σ} (h : (start c g index).1 = .ok s) :
    s.play.entry.robot = Robot.carrying s.spec.start none := by
  unfold start at h
  split at h
  · cases h
  · split at h
    · cases h
    · rename_i play g' notes he
      cases h
      obtain ⟨-, -, -, hrobot, -⟩ := begun_of_enter he
      exact hrobot

/-- A level that does not load leaves everything as it was played. -/
theorem load_error {s t : Session σ} {index : Int} {failure : EntryFailure}
    (h : s.load index = (t, .error failure)) :
    t.campaign = s.campaign ∧ t.credits = s.credits ∧ t.play = s.play := by
  unfold load at h
  split at h
  · cases h
    exact ⟨rfl, rfl, rfl⟩
  · cases h

/-- A session that starts has entered its first level. -/
theorem start_ok {c : Campaign} {g : σ} {index : Int} {s : Session σ} (h : (start c g index).1 = .ok s) :
    s.campaign = c ∧ s.play.entry.Prepared c ∧ s.play.entry.index = index ∧
      s.play.entry.credits = s.credits ∧ s.play = (s.play.entry.begin g).1 := by
  unfold start at h
  split at h
  · cases h
  · split at h
    · cases h
    · rename_i play g' notes he
      cases h
      obtain ⟨hp, hi, hc, -, hb⟩ := begun_of_enter he
      exact ⟨rfl, hp, hi, hc, hb⟩

theorem grounded_of_prepared {s : Session σ} (h : s.play.entry.Prepared s.campaign) {g : σ}
    (hb : s.play = (s.play.entry.begin g).1) : Grounded s.campaign.levels s := by
  refine ⟨rfl, h.valid, ?_⟩
  rw [spec]
  exact congrArg Play.rule hb

/-! ## Invariants -/

/-- What makes a property hold of every reachable session: it holds where a level begins, small steps
keep it, and it only looks at the level, not at what its files hold. -/
structure Invariant (levels : List LevelSpec) (P : Session σ → Prop) : Prop where
  /-- It holds where a level begins. -/
  begins : ∀ {s : Session σ}, Grounded levels s → s.Begun → P s
  /-- Every small step keeps it. -/
  step : ∀ {d : Deed} {s t : Session σ}, Grounded levels s → Step s d t → P s → P t
  /-- Reading the files anew keeps it. -/
  reread : ∀ {s : Session σ} (load : Loader), P s → P (s.withLoader load)
  /-- It looks at the level alone. -/
  play : ∀ {s t : Session σ}, t.play = s.play → P s → P t

namespace Invariant

variable {levels : List LevelSpec} {P : Session σ → Prop} {s t : Session σ}

theorem steps (h : Invariant levels P) (hs : Grounded levels s ∧ P s) (k : Steps s t) :
    Grounded levels t ∧ P t := by
  induction k with
  | refl => exact hs
  | tail _ hstep ih =>
    obtain ⟨d, hstep⟩ := hstep
    exact ⟨ih.1.progress hstep.progress, h.step ih.1 hstep ih.2⟩

/-- An invariant that looks at the level alone stays when only other things change. -/
theorem of_play (h : Invariant levels P) (hs : Grounded levels s ∧ P s) (campaign : t.campaign = s.campaign)
    (play : t.play = s.play) : Grounded levels t ∧ P t :=
  ⟨hs.1.of_eq campaign (by rw [play]) (by rw [play]), h.play play hs.2⟩

theorem loaded (h : Invariant levels P) (hs : Grounded levels s) {i : Int} (load : s.load i = (t, .ok ())) :
    Grounded levels t ∧ P t := by
  obtain ⟨hc, -, hprepared, -, -, hb⟩ := load_ok load
  have ht := grounded_of_prepared hprepared hb
  rw [hc, hs.levels] at ht
  exact ⟨ht, h.begins ht ⟨_, hb⟩⟩

/-- Every command keeps an invariant. -/
theorem execute (h : Invariant levels P) (hs : Grounded levels s ∧ P s) (c : Command) :
    Grounded levels (s.execute c).1 ∧ P (s.execute c).1 := by
  have hapart : Grounded levels s.apart ∧ P s.apart := h.of_play hs rfl rfl
  have heffect := execute_effect s c
  generalize s.execute c = outcome at heffect ⊢
  cases heffect with
  | refused _ => exact h.of_play hapart rfl rfl
  | failed _ load =>
    obtain ⟨hc, -, hp⟩ := load_error load
    exact h.of_play hapart hc hp
  | @entered i t r _ load =>
    have hdone := h.steps (h.loaded hapart.1 load) (checkCompletion_steps t)
    exact h.of_play hdone rfl rfl
  | @settled t r _ _ steps =>
    have hdone := h.steps (h.steps hapart steps.steps) (checkCompletion_steps t)
    exact h.of_play hdone rfl rfl
  | @met t u _ _ steps met =>
    -- a reset level begins again, so nothing is needed about how far it had been played
    have hu := (h.steps hapart steps.steps).1.progress met.progress
    obtain ⟨hg, hb⟩ := hu.begin (t := u.collide.report (.executed c.kind Reply.collision.text)) rfl rfl
    exact ⟨hg, h.begins hg hb⟩

/-- A command that is allowed and answered ends, unless robot and enemy have met, with a look at whether
the level is complete, and up to there an invariant is kept. -/
theorem checked (h : Invariant levels P) (hs : Grounded levels s ∧ P s) {c : Command} {r : Reply}
    (allowed : c.kind ∈ s.availableFunctions) (answered : s.execute c = (t, .ok r))
    (clear : t.collided = false) :
    ∃ u e, (Grounded levels u ∧ P u) ∧ t = u.checkCompletion.report e := by
  have hapart : Grounded levels s.apart ∧ P s.apart := h.of_play hs rfl rfl
  have heffect := execute_effect s c
  rw [answered] at heffect
  cases heffect with
  | refused hrefused => exact absurd allowed hrefused
  | entered _ load => exact ⟨_, _, h.loaded hapart.1 load, rfl⟩
  | settled _ _ steps => exact ⟨_, _, h.steps hapart steps.steps, rfl⟩
  | met _ _ _ _ => cases clear

/-- An invariant holds of every reachable session. -/
theorem reachable (h : Invariant levels P) (hs : Reachable levels s) : Grounded levels s ∧ P s := by
  induction hs with
  | start own starts =>
    obtain ⟨hc, hprepared, -, -, hb⟩ := start_ok starts
    rw [← hc] at hprepared own
    have hg := grounded_of_prepared hprepared hb
    rw [own] at hg
    exact ⟨hg, h.begins hg ⟨_, hb⟩⟩
  | command _ c ih => exact h.execute ih c
  | reread _ load ih => exact ⟨ih.1.reread load, h.reread load ih.2⟩
  | records _ campaign play _ ih => exact h.of_play ih campaign play

end Invariant

theorem Reachable.grounded {levels : List LevelSpec} {s : Session σ} (h : Reachable levels s) :
    Grounded levels s :=
  (Invariant.reachable (P := fun _ => True)
    ⟨fun _ _ => trivial, fun _ _ _ => trivial, fun _ _ => trivial, fun _ _ => trivial⟩ h).1

/-! ## Scripts -/

theorem Reachable.runCommands {levels : List LevelSpec} {s : Session σ} (h : Reachable levels s)
    (commands : List Command) (r : BatchReport) : Reachable levels (runCommands commands s r).1 := by
  induction commands generalizing s r with
  | nil => exact h
  | cons c rest ih =>
    have hc := h.command c
    unfold Session.runCommands
    simp only
    rcases he : s.execute c with ⟨t, failure | reply⟩
    · rw [he] at hc
      exact hc
    · rw [he] at hc
      simp only
      split
      · exact hc
      · split
        · exact hc.records rfl rfl rfl
        · split
          · exact hc
          · exact ih hc _

/-- A script does nothing but execute commands and write records. -/
theorem Reachable.runScript {levels : List LevelSpec} {s : Session σ} (h : Reachable levels s)
    (code : String) : Reachable levels (s.runScript code).1 := by
  unfold Session.runScript
  split
  · exact h
  · rename_i commands _
    have hempty : Reachable levels ({ s with events := [] } : Session σ) := h.records rfl rfl rfl
    simp only [runBatch]
    split
    · exact h.records rfl rfl rfl
    · have hrun := hempty.runCommands commands { commands := commands }
      split
      · rename_i he
        rw [he] at hrun
        exact hrun
      · rename_i he
        rw [he] at hrun
        exact hrun.records rfl rfl rfl

/-! ## A small campaign

Four courtyards of three by two tiles, each with a coin beside the robot and an enemy that comes along
the upper row. Whoever waits for two turns there is met. -/

/-- A courtyard. -/
def courtyard : LevelSpec where
  name := "Courtyard"
  width := 3
  height := 2
  start := ⟨0, 0⟩
  blockers := [⟨2, 1⟩]
  doors := [⟨1, 1⟩]
  enemies := [{ position := ⟨2, 0⟩, positive := false }]
  items := [{ name := "coin", position := some ⟨0, 1⟩ }]
  width_pos := by decide
  height_pos := by decide
  placed_inside := by decide

theorem four_pos : (0 : Int) < 4 := by decide

/-- Four courtyards, of which the last one has its enemy awake. -/
def courtyards : Campaign where
  levels := List.replicate 4 courtyard
  loader := Loader.ofTexts []

/-- A session that starts in the last courtyard. -/
def inCourtyard : Session Random.Twister :=
  ((start courtyards ⟨Vector.replicate _ 0, 0⟩ 3).1.toOption).get (by decide)

theorem inCourtyard_starts :
    (start courtyards (⟨Vector.replicate _ 0, 0⟩ : Random.Twister) 3).1 = .ok inCourtyard := rfl

end ScriptedRobot.Session
