import ScriptedRobot.Proofs.Session.Congruence
import ScriptedRobot.Proofs.Session.Entering
import ScriptedRobot.Proofs.Session.Kinds
import ScriptedRobot.Session.View

/-!
# Pattern files are aliases

The pattern of an enemy may name a file, and the file a kind of strategy. Writing the kind in place of the file, or
nothing where the file names none or its text cannot be had, changes nothing about how a session goes
(`alias_plays_alike`). The one session knows the names of the files and what was registered for them, the other does
not; but for these names they stay alike (`Twin`), as nothing that happens looks at them.
-/

namespace ScriptedRobot

/-! ## Levels without aliases -/

section Plain

variable {load : Loader} {root : Option Path}

theorem StrategyKind.filePath?_name (kind : StrategyKind) : PatternRegistry.filePath? kind.name = none := by
  cases kind <;> decide

/-- The pattern without an alias: instead of a file, the kind that the file names, if it names one. -/
def EnemySpec.plainPattern (load : Loader) (root : Option Path) (spec : EnemySpec) : Option String :=
  match spec.file? root with
  | some p => (load.kindAt? p).map StrategyKind.name
  | none => spec.pattern

/-- The enemy without an alias. -/
def EnemySpec.plain (load : Loader) (root : Option Path) (spec : EnemySpec) : EnemySpec :=
  { spec with pattern := spec.plainPattern load root }

/-- The level without aliases. -/
def LevelSpec.plain (load : Loader) (root : Option Path) (spec : LevelSpec) : LevelSpec :=
  spec.withPatterns (·.plainPattern load root)

/-- The campaign without aliases. -/
def Campaign.plain (c : Campaign) : Campaign := { c with levels := c.levels.map (·.plain c.loader c.root) }

theorem EnemySpec.file?_plain (spec : EnemySpec) : (spec.plain load root).file? root = none := by
  unfold plain plainPattern
  cases hfile : spec.file? root with
  | none => exact hfile
  | some p =>
    simp only [file?]
    cases load.kindAt? p with
    | none => rfl
    | some kind => exact congrArg (Option.map (resourcePath root)) kind.filePath?_name

theorem EnemySpec.kind?_plain (spec : EnemySpec) : (spec.plain load root).kind? load root = spec.kind? load root := by
  rw [kind?, file?_plain, kind?]
  simp only [plain, plainPattern]
  cases spec.file? root with
  | none => rfl
  | some p =>
    simp only
    cases load.kindAt? p with
    | none => rfl
    | some kind => exact kind.ofName?_name

/-- An enemy is the same without an alias, but for its name. -/
theorem EnemySpec.enemy_plain (spec : EnemySpec) :
    ((spec.plain load root).enemy load root).unnamed = (spec.enemy load root).unnamed := by
  rw [enemy, kind?_plain, enemy]
  rfl

theorem LevelSpec.unnamed_plain (spec : LevelSpec) : (spec.plain load root).unnamed = spec.unnamed :=
  spec.unnamed_withPatterns _

/-- No enemy of a campaign without aliases names a file. -/
theorem Campaign.plain_files (c : Campaign) :
    ∀ spec ∈ c.plain.levels, ∀ e ∈ spec.enemies, e.file? c.root = none := by
  intro spec hspec e he
  obtain ⟨d, -, rfl⟩ := List.mem_map.1 hspec
  obtain ⟨listed, -, rfl⟩ := List.mem_map.1 he
  exact listed.file?_plain

theorem Campaign.level?_plain (c : Campaign) (index : Int) :
    c.plain.level? index = (c.level? index).map (·.plain c.loader c.root) := by
  simp only [level?, plain, List.length_map, List.getElem?_map]
  split
  · rfl
  · split <;> rfl

end Plain

/-! ## Entering a level -/

section Begin

variable {σ : Type} [WordSource σ]

/-- A level begins alike without the names. -/
theorem LevelEntry.begin_unnamed (e : LevelEntry) (g : σ) :
    (e.unnamed.begin g).1 = (e.begin g).1.unnamed ∧ (e.unnamed.begin g).2.1 = (e.begin g).2.1 := by
  have hsetUp := Board.setUp_unnamed e.spec e.enemies e.patterns g
  have hboard : (e.board g).1.unnamed = (e.unnamed.board g).1 := by
    have hentered : (e.board g).1 =
        ((Board.setUp e.spec e.enemies e.patterns g).1.visit e.spec.start).revealAround e.spec.start := rfl
    rw [hentered, Board.unnamed_revealAround, Board.unnamed_visit]
    exact congrArg (fun o => (o.1.visit e.spec.start).revealAround e.spec.start) hsetUp.symm
  have hrng : (e.unnamed.board g).2.1 = (e.board g).2.1 := congrArg (·.2.1) hsetUp
  refine ⟨?_, hrng⟩
  simp only [LevelEntry.begin, Play.unnamed, hboard]
  rfl

theorem LevelEntry.begin_congr {e e' : LevelEntry} (h : e.unnamed = e'.unnamed) (g : σ) :
    (e.begin g).1.unnamed = (e'.begin g).1.unnamed ∧ (e.begin g).2.1 = (e'.begin g).2.1 := by
  obtain ⟨hplay, hrng⟩ := e.begin_unnamed g
  obtain ⟨hplay', hrng'⟩ := e'.begin_unnamed g
  rw [← hplay, ← hrng, ← hplay', ← hrng', h]
  exact ⟨rfl, rfl⟩

theorem LevelEntry.Prepared.spec_plain {c : Campaign} {e e' : LevelEntry} (he : e.Prepared c)
    (he' : e'.Prepared c.plain) (index : e'.index = e.index) : e'.spec = e.spec.plain c.loader c.root := by
  have hlevel := he'.level
  rw [index, Campaign.level?_plain, he.level] at hlevel
  exact (Option.some.inj hlevel).symm

/-- What a level is entered with is the same without aliases, but for the names. -/
theorem LevelEntry.Prepared.unnamed_eq {c : Campaign} {e e' : LevelEntry} (he : e.Prepared c)
    (he' : e'.Prepared c.plain) (index : e'.index = e.index) (robot : e'.robot = e.robot)
    (credits : e'.credits = e.credits) : e.unnamed = e'.unnamed := by
  have hspec := he.spec_plain he' index
  have henemies : e.enemies.map Enemy.unnamed = e'.enemies.map Enemy.unnamed := by
    rw [he.enemies_eq, he'.enemies_eq, hspec]
    simp only [LevelSpec.plain, LevelSpec.withPatterns, List.map_map]
    exact List.map_congr_left fun spec _ => spec.enemy_plain.symm
  have hitems : e.items = e'.items := by
    rw [he.items_eq, he'.items_eq, hspec, robot]
    rfl
  simp only [LevelEntry.unnamed, index, robot, credits, henemies, hitems, hspec, LevelSpec.unnamed_plain]

/-- A level is entered alike without aliases. -/
theorem Campaign.enter_plain {c : Campaign} (reliable : c.loader.Reliable) (index : Int) (progress : Option Robot)
    (credits : Int) (g : σ) :
    (∃ failure g' notes notes', c.enter index progress credits g = (.error failure, g', notes) ∧
      c.plain.enter index progress credits g = (.error failure, g', notes')) ∨
    ∃ play play' g' notes notes', c.enter index progress credits g = (.ok play, g', notes) ∧
      c.plain.enter index progress credits g = (.ok play', g', notes') ∧ play.unnamed = play'.unnamed := by
  cases hlevel : c.level? index with
  | none =>
    refine .inl ⟨.noSuchLevel, g, [], [], ?_, ?_⟩
    · simp only [enter, hlevel]
    · simp only [enter, level?_plain, hlevel, Option.map_none]
  | some spec =>
    have hthere : c.HasLevel index := level?_eq_some_iff.1 ⟨spec, hlevel⟩
    have hthere' : c.plain.HasLevel index :=
      level?_eq_some_iff.1 ⟨spec.plain c.loader c.root, by rw [level?_plain, hlevel]; rfl⟩
    obtain ⟨play, g₁, notes, hplay⟩ := enter_succeeds reliable hthere progress credits g
    obtain ⟨play', g₂, notes', hplay'⟩ := enter_succeeds (c := c.plain) reliable hthere' progress credits g
    obtain ⟨e, he, rfl, rfl, hrobot, hbegin⟩ := LevelEntry.prepared_of_enter hplay
    obtain ⟨e', he', hindex, hcredits, hrobot', hbegin'⟩ := LevelEntry.prepared_of_enter hplay'
    have hstart : e'.spec.start = e.spec.start := congrArg (·.start) (he.spec_plain he' hindex)
    obtain ⟨halike, hrng⟩ := LevelEntry.begin_congr
      (he.unnamed_eq he' hindex (by rw [hrobot', hrobot, hstart]) hcredits) g
    rw [hbegin, hbegin'] at halike hrng
    cases hrng
    exact .inr ⟨play, play', g₁, notes, notes', hplay, hplay', halike⟩

end Begin

namespace Session

variable {σ : Type} {s t : Session σ}

/-! ## Sessions with and without aliases -/

/-- The second session plays the campaign of the first without aliases, and all is alike but for the names of
strategies and what has been noted. -/
structure Twin (s t : Session σ) : Prop where
  reliable : s.campaign.loader.Reliable
  campaign : t.campaign = s.campaign.plain
  play : s.play.unnamed = t.play.unnamed
  rng : s.rng = t.rng
  credits : s.credits = t.credits
  batches : s.batches = t.batches
  lastResult : s.lastResult = t.lastResult
  collided : s.collided = t.collided
  events : s.events = t.events

namespace Twin

theorem level (h : Twin s t) : s.level = t.level := Play.look (·.entry.index) h.play fun _ => rfl

theorem change (h : Twin s t) (f : Play → Play) (blind : ∀ p, (f p).unnamed = f p.unnamed) :
    Twin (s.onPlay f) (t.onPlay f) := by
  have hplay : (f s.play).unnamed = (f t.play).unnamed := by rw [blind, h.play, blind]
  exact { h with play := hplay }

theorem report (h : Twin s t) (e : Event) : Twin (s.report e) (t.report e) :=
  { h with events := congrArg (· ++ [e]) h.events }

theorem note (h : Twin s t) (entries entries' : List Log.Entry) : Twin (s.note entries) (t.note entries') := { h with }

variable [WordSource σ]

theorem moveEnemies (h : Twin s t) : Twin s.moveEnemies t.moveEnemies := by
  have hboard : s.play.board.unnamed = t.play.board.unnamed := congrArg Play.board h.play
  have hrobot : s.play.robot = t.play.robot := Play.look (·.robot) h.play fun _ => rfl
  have hstunned : s.play.stunned = t.play.stunned := Play.look (·.stunned) h.play fun _ => rfl
  have hadvance := s.play.board.advance_unnamed (some s.play.robot.position) s.play.stunned.has s.rng
  rw [hboard, Board.advance_unnamed, hrobot, hstunned, h.rng] at hadvance
  obtain ⟨hmoved, hrest⟩ := Prod.mk.inj hadvance
  unfold Session.moveEnemies
  rw [hrobot, hstunned, h.rng]
  exact
    { h with
      play := congrArg₂ (fun (p : Play) b => { p with board := b }) h.play hmoved.symm
      rng := congrArg (·.2) hrest.symm
      events := congrArg₂ (fun events o => events ++ o.1.map Event.enemyMoved) h.events hrest.symm }

theorem reload (h : Twin s t) : Twin s.reload t.reload := by
  have hentry : s.play.entry.unnamed = t.play.entry.unnamed := congrArg Play.entry h.play
  obtain ⟨hplay, hrng⟩ := LevelEntry.begin_congr hentry t.rng
  unfold Session.reload
  rw [h.rng]
  exact { h with play := hplay, rng := hrng, credits := Play.look (·.entry.credits) h.play fun _ => rfl }

theorem collide (h : Twin s t) : Twin s.collide t.collide := by
  have hreset := (h.note [⟨.info, .session, s!"Enemy collision on level {t.level + 1}; reloading"⟩]
    [⟨.info, .session, s!"Enemy collision on level {t.level + 1}; reloading"⟩]).reload
  have hevents := congrArg₂ (fun events level => events ++ [Event.collision level]) hreset.events hreset.level
  unfold Session.collide
  rw [h.level]
  exact { hreset with lastResult := rfl, collided := rfl, events := hevents }

theorem load (h : Twin s t) (index : Int) : Matched Twin (s.load index) (t.load index) := by
  have hrobot : s.play.robot = t.play.robot := Play.look (·.robot) h.play fun _ => rfl
  have henter : t.campaign.enter index (some t.play.robot) t.credits t.rng =
      s.campaign.plain.enter index (some s.play.robot) s.credits s.rng := by
    rw [h.campaign, hrobot, h.credits, h.rng]
  unfold Session.load
  rw [henter]
  rcases Campaign.enter_plain h.reliable index (some s.play.robot) s.credits s.rng with
    ⟨failure, g, notes, notes', hs, ht⟩ | ⟨play, play', g, notes, notes', hs, ht, halike⟩
  · rw [hs, ht]
    exact ⟨{ h with rng := rfl }, rfl⟩
  · rw [hs, ht]
    exact ⟨{ h with play := halike, rng := rfl }, rfl⟩

end Twin

/-- Whatever is done to the twins, they stay twins. -/
theorem twin_congruence [WordSource σ] : Congruence (Twin : Session σ → Session σ → Prop) where
  play h := h.play
  levels h := by
    rw [h.campaign]
    exact (List.length_map _).symm
  collided h := h.collided
  apart h := { h with collided := rfl }
  change h := h.change
  pay h n := { h with credits := congrArg (· + n) h.credits }
  report h := h.report
  note h entries := h.note entries entries
  moveEnemies h := h.moveEnemies
  collide h := h.collide
  load h := h.load
  opened h := { h with events := rfl }
  endBatch h _ := { h with lastResult := rfl, batches := congrArg (· + 1) h.batches }

variable [WordSource σ]

/-! ## What is seen of a session -/

/-- What is seen of a session after a batch. -/
structure Showing (σ : Type) where
  /-- What the script came to. -/
  outcome : Except BatchFailure BatchReport
  /-- What has happened during the batch. -/
  events : List Event
  /-- Where the session is now. -/
  snapshot : StateSnapshot
  /-- Where the next random numbers come from. -/
  rng : σ

/-- What is seen when scripts are run one after the other. -/
def showings : List String → Session σ → List (Showing σ)
  | [], _ => []
  | code :: rest, s =>
    let (s, outcome) := s.runScript code
    ⟨outcome, s.events, s.snapshot, s.rng⟩ :: showings rest s

/-- What is seen of a session from its start on, if it starts. -/
def watch (c : Campaign) (g : σ) (index : Int) (scripts : List String) :
    Except StartFailure (StateSnapshot × σ × List (Showing σ)) :=
  (start c g index).1.map fun s => (s.snapshot, s.rng, showings scripts s)

omit [WordSource σ] in
/-- A snapshot shows no names. -/
theorem snapshot_unnamed (s : Session σ) : (s.onPlay Play.unnamed).snapshot = s.snapshot := by
  simp only [Session.snapshot, onPlay, Play.unnamed, Board.unnamed, List.zipIdx_map, List.map_map]
  rfl

omit [WordSource σ] in
theorem Twin.snapshot (h : Twin s t) : s.snapshot = t.snapshot := by
  rw [← s.snapshot_unnamed, ← t.snapshot_unnamed]
  simp only [Session.snapshot, Session.level, spec, enemySnapshot, onPlay, h.play, h.credits]

/-- Running scripts shows the same of twins. -/
theorem Twin.showings (h : Twin s t) (scripts : List String) :
    Session.showings scripts s = Session.showings scripts t := by
  induction scripts generalizing s t with
  | nil => rfl
  | cons code rest ih =>
    obtain ⟨hsession, hanswer⟩ := twin_congruence.runScript h code
    simp only [Session.showings, hanswer, hsession.events, hsession.snapshot, hsession.rng, ih hsession]

/-- A campaign starts alike without aliases. -/
theorem twin_start {c : Campaign} (reliable : c.loader.Reliable) (g : σ) (index : Int) :
    (∃ failure, (start c g index).1 = .error failure ∧ (start c.plain g index).1 = .error failure) ∨
      ∃ s t, (start c g index).1 = .ok s ∧ (start c.plain g index).1 = .ok t ∧ Twin s t := by
  have hempty : c.plain.levels.isEmpty = c.levels.isEmpty := List.isEmpty_map
  unfold start
  rw [hempty]
  by_cases hlevels : c.levels.isEmpty = true
  · rw [if_pos hlevels, if_pos hlevels]
    exact .inl ⟨.noLevels, rfl, rfl⟩
  · rw [if_neg hlevels, if_neg hlevels]
    rcases Campaign.enter_plain reliable index none 0 g with
      ⟨failure, g', notes, notes', hs, ht⟩ | ⟨play, play', g', notes, notes', hs, ht, halike⟩
    · rw [hs, ht]
      exact .inl ⟨.entry failure, rfl, rfl⟩
    · rw [hs, ht]
      exact .inr ⟨_, _, rfl, rfl, ⟨reliable, rfl, halike, rfl, rfl, rfl, rfl, rfl, rfl⟩⟩

/-- Pattern files are nothing but aliases. With kinds in place of files no level names a pattern file any more, and
still a session starts where it started before, and whatever scripts are run, the same is seen after every batch. -/
theorem alias_plays_alike {c : Campaign} (reliable : c.loader.Reliable) (g : σ) (index : Int)
    (scripts : List String) :
    (∀ spec ∈ c.plain.levels, ∀ e ∈ spec.enemies, e.file? c.root = none) ∧
      watch c.plain g index scripts = watch c g index scripts := by
  refine ⟨c.plain_files, ?_⟩
  unfold watch
  rcases twin_start reliable g index with ⟨failure, hs, ht⟩ | ⟨s, t, hs, ht, h⟩
  · rw [hs, ht]
  · rw [hs, ht]
    simp only [Except.map, h.snapshot, h.rng, h.showings]

/-- A lair with two hunters that share a file and a third one whose file is missing. -/
def lair : LevelSpec where
  name := "Lair"
  width := 3
  height := 3
  start := ⟨0, 0⟩
  enemies := [{ position := ⟨2, 0⟩, pattern := some "file:hunt.rs" },
    { position := ⟨2, 2⟩, pattern := some "file:hunt.rs" }, { position := ⟨0, 2⟩, pattern := some "file:lost.rs" }]
  width_pos := courtyard.width_pos
  height_pos := courtyard.width_pos
  placed_inside := by decide

/-- Lairs, as far as enemies appear and one further. -/
def lairs : Campaign where
  levels := List.replicate 5 lair
  loader := Loader.ofTexts [("hunt.rs", "// MOVEMENT_PATTERN: Chase")]

theorem alias_plays_alike_lairs :
    lairs.loader.Reliable ∧
      lair.enemies.map (·.plainPattern lairs.loader lairs.root) = [some "chase", some "chase", none] ∧
      (∀ spec ∈ lairs.plain.levels, ∀ e ∈ spec.enemies, e.file? lairs.root = none) ∧
      watch lairs.plain (⟨Vector.replicate _ 0, 0⟩ : Random.Twister) 3 ["move(down)", "goto_level(5)\nsearch_all()"] =
        watch lairs ⟨Vector.replicate _ 0, 0⟩ 3 ["move(down)", "goto_level(5)\nsearch_all()"] :=
  have reliable : lairs.loader.Reliable := Loader.ofTexts_reliable _
  ⟨reliable, by decide +kernel, alias_plays_alike reliable _ 3 _⟩

end Session

end ScriptedRobot
