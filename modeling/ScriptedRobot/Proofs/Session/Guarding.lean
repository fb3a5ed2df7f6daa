import ScriptedRobot.Proofs.Session.Credits
import ScriptedRobot.Proofs.Session.Kinds
import ScriptedRobot.Proofs.Session.Rollback
import ScriptedRobot.Proofs.Session.Strides
import ScriptedRobot.Proofs.Strategy.Guard

/-!
# Guards keep to their posts until the level is loaded again

`Passes` lists what can happen to a session without its level being loaded, the small steps of its commands among it.
All that an enemy does then is to have its turns (`Passing.enemy`), whatever the other enemies, the player and the
lasers do. So what a guard keeps through all its turns it keeps from one load to the next (`guards_keep_their_posts`).
-/

namespace ScriptedRobot.Session

open Relation

variable {σ : Type} [WordSource σ] {levels : List LevelSpec} {s t home : Session σ} {gs : List Gain}

/-! ## From one load to the next -/

/-- What can happen to a session without its level being loaded. -/
inductive Passes (s : Session σ) : Session σ → Prop where
  /-- A command takes a small step. -/
  | step {d : Deed} {t : Session σ} (h : Step s d t) : Passes s t
  /-- The robot and an enemy meet. -/
  | met {t : Session σ} (h : Encounter s t) : Passes s t
  /-- The files of the level are read anew, for the next time that it is reset. -/
  | reread (load : Loader) : Passes s (s.withLoader load)
  /-- Only what is recorded about the session changes. -/
  | records {t : Session σ} (play : t.play = s.play) : Passes s t

/-- What can have become of a session without its level being loaded, at any moment of its commands. -/
abbrev Passing : Session σ → Session σ → Prop := ReflTransGen Passes

theorem Steps.passing (h : Steps s t) : Passing s t := ReflTransGen.mono (fun _ _ ⟨_, hstep⟩ => .step hstep) s t h

/-- A command that neither enters a level nor meets an enemy loads none. -/
theorem passing_of_stays {v : Visit σ} (stays : v.Stays) : Passing v.before v.after := by
  obtain ⟨s, c⟩ := v
  obtain ⟨clear, noLoad⟩ := stays
  have hapart : Passing s s.apart := .single (.records rfl)
  have heffect := execute_effect s c
  simp only [Visit.after] at clear ⊢
  generalize s.execute c = outcome at heffect clear ⊢
  cases heffect with
  | refused _ => exact hapart.tail (.records rfl)
  | failed _ load =>
    obtain ⟨-, -, play⟩ := load_error load
    exact hapart.tail (.records play)
  | entered goes load => exact absurd load (noLoad _ _ goes)
  | @settled t _ _ _ steps =>
    have hchecked := (hapart.trans steps.steps.passing).trans (checkCompletion_steps t).passing
    exact hchecked.tail (.records rfl)
  | met _ _ _ _ => cases clear

/-- Since the level was last loaded, nothing else has happened. -/
theorem Since.passing (h : Since levels home gs s) : Passing home s := by
  induction h with
  | started _ _ => exact .refl
  | @entered s t c i _ goes load =>
    obtain ⟨r, he⟩ := execute_loads goes load
    rw [he]
    exact (checkCompletion_steps t).passing.tail (.records rfl)
  | reset _ _ => exact .refl
  | command _ stays ih => exact ih.trans (passing_of_stays stays)
  | reread _ load ih => exact ih.tail (.reread load)
  | records _ _ play _ ih => exact ih.tail (.records play)

/-! ## Enemies from one load to the next -/

/-- Whatever happens, an enemy has its turn or is left alone. -/
theorem Passes.enemy (h : Passes s t) {i : Nat} {e : Enemy} (there : s.play.board.enemies[i]? = some e) :
    t.play.board.enemies[i]? = some e ∨ ∃ turn : Enemy.Turn σ, t.play.board.enemies[i]? = some (e.tick turn) := by
  have moved : s.moveEnemies.play.board.enemies[i]? = some e ∨
      ∃ turn : Enemy.Turn σ, s.moveEnemies.play.board.enemies[i]? = some (e.tick turn) :=
    s.play.board.advance_patrols (some s.play.robot.position) s.play.stunned.has s.rng there
  have unmoved : t.play.board.enemies = s.play.board.enemies → t.play.board.enemies[i]? = some e := fun same => by
    rw [same]
    exact there
  cases h with
  | @step d t h =>
    by_cases hd : d = .enemies
    · subst hd
      cases h with
      | enemies deep awake clear => exact moved
    · exact .inl (unmoved (h.untouched.enemies hd))
  | met h =>
    cases h with
    | walk h inside way meets => exact .inl (unmoved (stepOnto_enemies _ _))
    | enemies deep awake meets => exact moved
  | reread load => exact .inl there
  | records play => exact .inl (unmoved (by rw [play]))

/-- Until the level is loaded again, all that an enemy does is to have turns. -/
theorem Passing.enemy (h : Passing s t) {i : Nat} {e : Enemy} (there : s.play.board.enemies[i]? = some e) :
    ∃ turns : List (Enemy.Turn σ), t.play.board.enemies[i]? = some (e.patrol turns) := by
  induction h with
  | refl => exact ⟨[], there⟩
  | tail _ passes ih =>
    obtain ⟨turns, hturns⟩ := ih
    rcases passes.enemy hturns with hsame | ⟨turn, hturn⟩
    · exact ⟨turns, hsame⟩
    · refine ⟨turns ++ [turn], ?_⟩
      rw [Enemy.patrol_concat]
      exact hturn

/-! ## Enemies of a level that is loaded -/

/-- A command leaves what the level was entered with as it is, or has entered a level. -/
theorem execute_enters (s : Session σ) (c : Command) :
    (s.execute c).1.play.entry = s.play.entry ∨ ∃ campaign, (s.execute c).1.play.entry.Prepared campaign := by
  by_cases loads : ∃ i u, s.destination? c = some i ∧ s.apart.load i = (u, .ok ())
  · obtain ⟨i, u, goes, load⟩ := loads
    obtain ⟨r, he⟩ := execute_loads goes load
    obtain ⟨-, -, hprepared, -⟩ := load_ok load
    have hentry : (s.execute c).1.play.entry = u.play.entry := by
      rw [he]
      exact (checkCompletion_steps u).progress.entry
    exact .inr ⟨u.campaign, hentry ▸ hprepared⟩
  · exact .inl (execute_entry fun i u goes load => loads ⟨i, u, goes, load⟩).2

/-- A level is entered, and entered again, with fresh enemies. -/
theorem Reachable.listed_isFresh (h : Reachable levels s) : ∀ e ∈ s.play.entry.enemies, e.IsFresh := by
  induction h with
  | start _ starts =>
    obtain ⟨-, hprepared, -⟩ := start_ok starts
    exact hprepared.enemies_isFresh
  | @command s _ c ih =>
    rcases execute_enters s c with hentry | ⟨campaign, hprepared⟩
    · rw [hentry]
      exact ih
    · exact hprepared.enemies_isFresh
  | reread _ load ih => exact enemies_withLoader (fun _ => id) ih load
  | records _ _ play _ ih =>
    rw [play]
    exact ih

/-- All enemies of a level that is loaded are fresh. -/
theorem Since.isFresh (h : Since levels home gs s) : ∀ e ∈ home.play.board.enemies, e.IsFresh := by
  induction h with
  | started _ starts =>
    obtain ⟨-, hprepared, -, -, hbegin⟩ := start_ok starts
    exact enemies_of_begin (fun _ => id) hprepared.enemies_isFresh hbegin
  | entered _ _ load =>
    obtain ⟨-, -, hprepared, -, -, hbegin⟩ := load_ok load
    exact enemies_of_begin (fun _ => id) hprepared.enemies_isFresh hbegin
  | @reset s c h meets =>
    -- the level that is loaded again is the one of the session that has met the enemy
    obtain ⟨t, u, -, -, he⟩ := (execute_effect s c).encounter meets
    have listed := (h.command c).listed_isFresh
    rw [he] at listed ⊢
    exact enemies_of_begin (g := u.rng) (fun _ => id) listed rfl
  | command _ _ ih => exact ih
  | reread _ _ ih => exact ih
  | records _ _ _ _ ih => exact ih

/-! ## Guards -/

/-- A fresh enemy that moves like a guard is a fresh guard. -/
theorem guards_of_isFresh {e : Enemy} (fresh : e.IsFresh) (guards : e.strategy.tag = StrategyKind.guard.name) :
    Guard.Keeps e.position e := by
  obtain ⟨kind, positive, hkind⟩ := fresh
  have hname : StrategyKind.ofName? kind.name = StrategyKind.ofName? StrategyKind.guard.name := by
    rw [← guards, hkind, StrategyKind.tag_start]
  rw [StrategyKind.ofName?_name, StrategyKind.ofName?_name] at hname
  cases hname
  exact Guard.keeps_fresh hkind

/-- A guard never leaves its post. Every session was last loaded at some time. Whatever can have become of it since,
an enemy that was a guard then is within three orthogonal steps of where it was then, and has recorded no other tile as
its post; and whatever happens next, it goes one orthogonal step at most. -/
theorem guards_keep_their_posts :
    (∀ s : Session σ, Reachable levels s → ∃ home gs, Since levels home gs s) ∧
      ∀ (home s t : Session σ) (gs : List Gain) (i : Nat) (guard : Enemy), Since levels home gs s → Passing s t →
        home.play.board.enemies[i]? = some guard → guard.strategy.tag = "guard" →
          ∃ e, t.play.board.enemies[i]? = some e ∧ Guard.Keeps guard.position e ∧
            ∀ u, Passes t u → ∃ e', u.play.board.enemies[i]? = some e' ∧
              (e'.position = e.position ∨ ∃ heading : Heading, e'.position = e.position + heading.step) := by
  refine ⟨fun s h => h.since, ?_⟩
  intro home s t gs i guard since later there guards
  have hpassing : Passing home t := since.passing.trans later
  obtain ⟨turns, hpatrol⟩ := hpassing.enemy there
  have fresh := since.isFresh guard (List.mem_of_getElem? there)
  have keeps := (guards_of_isFresh fresh guards).patrol turns
  refine ⟨guard.patrol turns, hpatrol, keeps, ?_⟩
  intro u passes
  rcases passes.enemy hpatrol with hsame | ⟨turn, hturn⟩
  · exact ⟨_, hsame, .inl rfl⟩
  · exact ⟨_, hturn, (keeps.tick turn).2⟩

/-- A bailey with two guards, one of whom is named by a file. -/
def bailey : LevelSpec where
  name := "Bailey"
  width := 4
  height := 3
  start := ⟨0, 0⟩
  enemies := [{ position := ⟨3, 0⟩, pattern := some "guard" }, { position := ⟨2, 2⟩, pattern := some "file:owl.rs" }]
  width_pos := four_pos
  height_pos := courtyard.width_pos
  placed_inside := by decide

/-- Four baileys, of which the last one has its guards awake. -/
def baileys : Campaign where
  levels := List.replicate 4 bailey
  loader := Loader.ofTexts [("owl.rs", "// MOVEMENT_PATTERN: Guard")]

/-- A session that starts in the last bailey. -/
def inBailey : Session Random.Twister :=
  ((start baileys ⟨Vector.replicate _ 0, 0⟩ 3).1.toOption).get (by decide +kernel)

theorem inBailey_starts : (start baileys (⟨Vector.replicate _ 0, 0⟩ : Random.Twister) 3).1 = .ok inBailey := by
  have ok : ∀ {outcome : Except StartFailure (Session Random.Twister)} (h : outcome.toOption.isSome = true),
      outcome = .ok (outcome.toOption.get h) := by
    intro outcome h
    cases outcome with
    | ok s => rfl
    | error failure => cases h
  exact ok _

/-- The guard that the file names, as the bailey is loaded. -/
def owl : Enemy := ⟨⟨2, 2⟩, .horizontal, true, some "file:owl.rs", .guard 0 none none⟩

/-- Where it stands after the robot has grabbed, a turn later. -/
theorem guards_keep_their_posts_bailey :
    ∃ e, (inBailey.execute .grab).1.play.board.enemies[1]? = some e ∧ Guard.Keeps owl.position e ∧
      e.position = ⟨3, 2⟩ := by
  have loaded : Since baileys.levels inBailey [] inBailey := .started rfl inBailey_starts
  have stays : (Visit.mk inBailey .grab).Stays := .of_destination (by decide +kernel) rfl
  have there : inBailey.play.board.enemies[1]? = some owl := by decide +kernel
  obtain ⟨e, hthere, keeps, -⟩ := guards_keep_their_posts.2 inBailey inBailey (inBailey.execute .grab).1 [] 1 owl loaded
    (passing_of_stays stays) there rfl
  have hwent : (inBailey.execute .grab).1.play.board.enemies[1]?.map (·.position) = some ⟨3, 2⟩ := by decide +kernel
  rw [hthere] at hwent
  exact ⟨e, hthere, keeps, Option.some.inj hwent⟩

end ScriptedRobot.Session
