import ScriptedRobot.Proofs.Session.Reachable

/-!
# Every enemy is of a kind that can be looked up

The name under which the strategy of an enemy is looked up is always that of a kind, whatever its pattern and
whatever the pattern files hold (`resolve_eq`), and what a pattern file names can be registered
(`registerName_of_load`). So no enemy of a reachable session is of an unknown kind.
-/

namespace ScriptedRobot

open Log.Noting

namespace StrategyKind

theorem ofName?_name (kind : StrategyKind) : ofName? kind.name = some kind := by
  cases kind <;> decide

theorem tag_start (kind : StrategyKind) (positive : Bool) : (kind.start positive).tag = kind.name := by
  cases kind <;> rfl

end StrategyKind

namespace PatternRegistry

/-- The name under which the strategy of an enemy is looked up. -/
def kindName (r : PatternRegistry) (index : Int) (pattern : Option String) (axis : Axis) : String :=
  match pattern with
  | none => axis.name
  | some pattern =>
    if (filePath? pattern).isSome then ((r.get? (key index)).map StrategyKind.name).getD axis.name
    else if (StrategyKind.ofName? pattern).isSome then pattern
    else axis.name

/-- The strategy of an enemy is a fresh one of the kind that is looked up, and there is such a kind. -/
theorem resolve_eq (r : PatternRegistry) (index : Int) (pattern : Option String) (axis : Axis)
    (positive : Bool) :
    ∃ kind, StrategyKind.ofName? (r.kindName index pattern axis) = some kind ∧
      (r.resolve index pattern axis positive).1 = kind.start positive := by
  have haxis : StrategyKind.ofName? axis.name = some axis.kind := StrategyKind.ofName?_name axis.kind
  unfold resolve kindFor kindName
  cases pattern with
  | none => exact ⟨axis.kind, haxis, rfl⟩
  | some pattern =>
    by_cases hfile : (filePath? pattern).isSome = true
    · simp only [hfile, if_true]
      cases r.get? (key index) with
      | none => exact ⟨axis.kind, haxis, rfl⟩
      | some kind => exact ⟨kind, StrategyKind.ofName?_name kind, rfl⟩
    · simp only [hfile, Bool.false_eq_true, if_false]
      cases hkind : StrategyKind.ofName? pattern with
      | none => exact ⟨axis.kind, haxis, rfl⟩
      | some kind => exact ⟨kind, hkind, rfl⟩

/-- What a pattern file names is registered by that name, which is not refused. -/
theorem registerName_of_load {r r' : PatternRegistry} {load : Loader} {key : String} {p : Path}
    (h : (r.load load key p).Yields (true, r')) : ∃ kind : StrategyKind, r.registerName key kind.name = .ok r' := by
  unfold PatternRegistry.load at h
  split at h
  · obtain ⟨_, -, h⟩ := yields_bind h
    cases yields_pure h
  · obtain ⟨before, after, h⟩ := h
    cases h
  · split at h
    · rename_i kind _
      obtain ⟨-, rfl⟩ := Prod.mk.inj (yields_pure h)
      refine ⟨kind, ?_⟩
      rw [registerName, StrategyKind.ofName?_name]
    · obtain ⟨_, -, h⟩ := yields_bind h
      cases yields_pure h

end PatternRegistry

/-- Does the enemy move in the way of a kind that can be looked up? -/
def Enemy.IsKnown (e : Enemy) : Prop := ∃ kind, StrategyKind.ofName? e.strategy.tag = some kind

/-- Is the enemy's strategy a fresh one of some kind? -/
def Enemy.IsFresh (e : Enemy) : Prop := ∃ (kind : StrategyKind) (positive : Bool), e.strategy = kind.start positive

theorem Enemy.IsFresh.isKnown {e : Enemy} (h : e.IsFresh) : e.IsKnown := by
  obtain ⟨kind, positive, hkind⟩ := h
  refine ⟨kind, ?_⟩
  rw [hkind, StrategyKind.tag_start, StrategyKind.ofName?_name]

namespace Board

/-! ## Boards that are set up -/

theorem enemiesFrom_isFresh {load : Loader} {root : Option Path} {i : Nat} {specs : List EnemySpec}
    {patterns patterns' : PatternRegistry} {enemies : List Enemy}
    (h : (enemiesFrom load root i specs patterns).Yields (enemies, patterns')) : ∀ e ∈ enemies, e.IsFresh := by
  induction specs generalizing i patterns patterns' enemies with
  | nil =>
    rw [(Prod.mk.inj (yields_pure h)).1]
    exact fun e he => absurd he List.not_mem_nil
  | cons spec specs ih =>
    unfold enemiesFrom at h
    obtain ⟨⟨first, p⟩, hfirst, h⟩ := yields_bind h
    obtain ⟨⟨rest, q⟩, hrest, h⟩ := yields_bind h
    rw [(Prod.mk.inj (yields_pure h)).1]
    intro e he
    rcases List.mem_cons.1 he with rfl | he
    · obtain ⟨kind, -, hkind⟩ := p.resolve_eq i spec.pattern spec.axis spec.positive
      exact ⟨kind, spec.positive, (enemyOf_spec hfirst).2.trans hkind⟩
    · exact ih hrest e he

/-- The enemies that appear at random are fresh, too, so of all enemies there is only to say what holds of fresh
ones. -/
theorem setUp_forall {σ : Type} [WordSource σ] {P : Enemy → Prop} (fresh : ∀ e, e.IsFresh → P e) (spec : LevelSpec)
    {enemies : List Enemy} (patterns : PatternRegistry) (g : σ) (h : ∀ e ∈ enemies, P e) :
    ∀ e ∈ (setUp spec enemies patterns g).1.enemies, P e := by
  obtain ⟨known, blockers, scattered, spawned, he, -, -, hhazards⟩ := setUp_spec spec enemies patterns g
  rw [he]
  exact List.forall_mem_append.2 ⟨h, fun e hnew => fresh e ⟨_, _, hhazards.spawned_fresh e hnew⟩⟩

/-- Enemies stay of their kind. -/
theorem Develops.isKnown {b b' : Board} (hb : Develops b b') (h : ∀ e ∈ b.enemies, e.IsKnown) :
    ∀ e ∈ b'.enemies, e.IsKnown := by
  intro e he
  have hmem : e.identity ∈ b.enemies.map Enemy.identity := by
    rw [← hb.enemies]
    exact List.mem_map_of_mem he
  obtain ⟨d, hd, hsame⟩ := List.mem_map.1 hmem
  have htag : d.strategy.tag = e.strategy.tag := congrArg (·.2.2) hsame
  obtain ⟨kind, hkind⟩ := h d hd
  exact ⟨kind, htag ▸ hkind⟩

end Board

theorem LevelEntry.Prepared.enemies_isFresh {c : Campaign} {e : LevelEntry} (h : e.Prepared c) :
    ∀ d ∈ e.enemies, d.IsFresh := Board.enemiesFrom_isFresh (yields_of_outcome h.enemies)

namespace Session

/-! ## Sessions -/

variable {σ : Type}

/-- Every enemy is of a kind that can be looked up: those that the level is entered again with, and those that
are on the board. -/
structure KindsKnown (s : Session σ) : Prop where
  listed : ∀ e ∈ s.play.entry.enemies, e.IsKnown
  present : ∀ e ∈ s.play.board.enemies, e.IsKnown

theorem KindsKnown.of_play {s t : Session σ} (h : s.KindsKnown) (play : t.play = s.play) : t.KindsKnown := by
  refine ⟨?_, ?_⟩
  · rw [play]
    exact h.listed
  · rw [play]
    exact h.present

/-- The enemies of an entry whose files are read anew are those from before, or fresh ones. -/
theorem enemies_withLoader {P : Enemy → Prop} (fresh : ∀ e : Enemy, e.IsFresh → P e) {s : Session σ}
    (listed : ∀ e ∈ s.play.entry.enemies, P e) (load : Loader) : ∀ e ∈ (s.withLoader load).play.entry.enemies, P e := by
  simp only [withLoader, onPlay, Campaign.refresh]
  split
  · rename_i he _
    exact fun e hmem => fresh e (Board.enemiesFrom_isFresh (yields_of_outcome he) e hmem)
  · exact listed

theorem KindsKnown.reread {s : Session σ} (h : s.KindsKnown) (load : Loader) : (s.withLoader load).KindsKnown :=
  ⟨enemies_withLoader (fun _ => Enemy.IsFresh.isKnown) h.listed load, h.present⟩

variable [WordSource σ]

theorem KindsKnown.steps {s t : Session σ} (h : s.KindsKnown) (k : Steps s t) : t.KindsKnown := by
  have hp := k.progress
  refine ⟨?_, hp.board.isKnown h.present⟩
  rw [hp.entry]
  exact h.listed

/-- The enemies of a level that begins are the listed ones and fresh ones. -/
theorem enemies_of_begin {P : Enemy → Prop} (fresh : ∀ e : Enemy, e.IsFresh → P e) {s : Session σ} {g : σ}
    (listed : ∀ e ∈ s.play.entry.enemies, P e) (hb : s.play = (s.play.entry.begin g).1) :
    ∀ e ∈ s.play.board.enemies, P e := by
  have hboard : s.play.board = (s.play.entry.begin g).1.board := congrArg Play.board hb
  obtain ⟨known, hv, -⟩ := Board.visit_revealAround_spec (s.play.entry.setUp_start_inside g)
  rw [hboard, LevelEntry.begin_board, hv]
  exact Board.setUp_forall fresh s.play.entry.spec s.play.entry.patterns g listed

/-- Random enemies are of a known kind, so a level begins with none of another kind if none is listed. -/
theorem kindsKnown_of_begin {s : Session σ} {g : σ} (listed : ∀ e ∈ s.play.entry.enemies, e.IsKnown)
    (hb : s.play = (s.play.entry.begin g).1) : s.KindsKnown :=
  ⟨listed, enemies_of_begin (fun _ => Enemy.IsFresh.isKnown) listed hb⟩

theorem kindsKnown_of_prepared {s : Session σ} {c : Campaign} {g : σ} (h : s.play.entry.Prepared c)
    (hb : s.play = (s.play.entry.begin g).1) : s.KindsKnown :=
  kindsKnown_of_begin (fun d hd => (h.enemies_isFresh d hd).isKnown) hb

theorem KindsKnown.execute {s : Session σ} (h : s.KindsKnown) (c : Command) : (s.execute c).1.KindsKnown := by
  have hapart : s.apart.KindsKnown := h.of_play rfl
  have heffect := execute_effect s c
  generalize s.execute c = outcome at heffect ⊢
  cases heffect with
  | refused _ => exact hapart.of_play rfl
  | failed _ load =>
    obtain ⟨-, -, hp⟩ := load_error load
    exact hapart.of_play hp
  | @entered i t r _ load =>
    obtain ⟨-, -, hprepared, -, -, hb⟩ := load_ok load
    have ht : t.KindsKnown := kindsKnown_of_prepared hprepared hb
    exact (ht.steps (checkCompletion_steps t)).of_play rfl
  | settled _ _ steps => exact ((hapart.steps steps.steps).steps (checkCompletion_steps _)).of_play rfl
  | @met t u _ _ steps met =>
    have hentry : u.play.entry = s.play.entry := (steps.steps.progress.trans met.progress).entry
    refine kindsKnown_of_begin ?_ (g := u.rng) rfl
    rw [show (u.collide.report _).play.entry = u.play.entry from rfl, hentry]
    exact h.listed

theorem Reachable.kindsKnown {levels : List LevelSpec} {s : Session σ} (h : Reachable levels s) :
    s.KindsKnown := by
  induction h with
  | start _ starts =>
    obtain ⟨-, hprepared, -, -, hb⟩ := start_ok starts
    exact kindsKnown_of_prepared hprepared hb
  | command _ c ih => exact ih.execute c
  | reread _ load ih => exact ih.reread load
  | records _ _ play _ ih => exact ih.of_play play

end Session

end ScriptedRobot
