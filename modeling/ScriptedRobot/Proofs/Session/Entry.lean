import ScriptedRobot.Proofs.Board.Hazards
import ScriptedRobot.Session.Entry

/-!
# What a level is entered with

`LevelEntry.Prepared` says that an entry is exactly what reading a level's files gives; such an entry
begins the level in the way in which entering the level does, files and all (`enter_prepared`).
`LevelEntry.Valid` is what stays true even when the files change between two readings: the level, and
where everything stands.
-/

namespace ScriptedRobot

/-- What has gone wrong, if anything has. -/
def failure? {ε α : Type} : Except ε α → Option ε
  | .ok _ => none
  | .error e => some e

/-! ## Noting steps that succeed or fail -/

namespace Log

variable {ε α β : Type}

/-- Started with some notes, the step succeeds with this value. -/
def Noting.Yields (step : Noting ε α) (a : α) : Prop := ∃ before after, step.run.run before = (.ok a, after)

theorem Noting.yields_of_outcome {step : Noting ε α} {a : α} {notes : List Entry}
    (h : step.outcome = (.ok a, notes)) : step.Yields a := ⟨[], notes, h⟩

theorem Noting.yields_pure {a b : α} (h : Noting.Yields (pure a : Noting ε α) b) : b = a := by
  obtain ⟨before, after, h⟩ := h
  cases h
  rfl

/-- The second of two steps goes on from the notes of the first, unless that fails. -/
theorem Noting.run_bind (step : Noting ε α) (f : α → Noting ε β) (before : List Entry) :
    (step >>= f).run.run before = match step.run.run before with
      | (.ok a, notes) => (f a).run.run notes
      | (.error e, notes) => (.error e, notes) := by
  simp only [ExceptT.run_bind, StateT.run_bind]
  rcases step.run.run before with ⟨_ | _, _⟩ <;> rfl

/-- A sequence succeeds only if its first step does and then its second. -/
theorem Noting.yields_bind {step : Noting ε α} {f : α → Noting ε β} {b : β} (h : (step >>= f).Yields b) :
    ∃ a, step.Yields a ∧ (f a).Yields b := by
  obtain ⟨before, after, h⟩ := h
  rw [run_bind] at h
  split at h
  · rename_i a notes hs
    exact ⟨a, ⟨before, notes, hs⟩, notes, after, h⟩
  · cases h

/-- Whatever has been noted before, the step fails with this, or succeeds if there is nothing to fail with. -/
def Noting.FailsWith (step : Noting ε α) (x : Option ε) : Prop := ∀ before, failure? (step.run.run before).1 = x

variable {x y : Option ε}

theorem Noting.failsWith_pure (a : α) : (pure a : Noting ε α).FailsWith none := fun _ => rfl

theorem Noting.failsWith_note (entries : List Entry) : (note entries : Noting ε Unit).FailsWith none := fun _ => rfl

theorem Noting.failsWith_throw (e : ε) : (throw e : Noting ε α).FailsWith (some e) := fun _ => rfl

/-- The second of two steps is only taken if the first does not fail. -/
theorem Noting.failsWith_bind {step : Noting ε α} {f : α → Noting ε β} (h : step.FailsWith x)
    (k : ∀ a, (f a).FailsWith y) : (step >>= f).FailsWith (x.or y) := by
  intro before
  have hfirst := h before
  rw [run_bind]
  rcases hstep : step.run.run before with ⟨e | a, notes⟩
  · rw [hstep] at hfirst
    rw [← hfirst]
    rfl
  · rw [hstep] at hfirst
    rw [← hfirst]
    exact k a notes

/-- A second step that never fails does not matter for how two steps fail. -/
theorem Noting.failsWith_then {step : Noting ε α} {f : α → Noting ε β} (h : step.FailsWith x)
    (k : ∀ a, (f a).FailsWith none) : (step >>= f).FailsWith x := by
  have hboth := failsWith_bind h k
  rwa [Option.or_none] at hboth

end Log

open Log.Noting

/-! ## Listed enemies and placed items -/

/-- A listed enemy stands where it is listed, with the strategy that the pattern files read so far give it. -/
theorem Board.enemyOf_spec {load : Loader} {root : Option Path} {i : Nat} {spec : EnemySpec}
    {patterns patterns' : PatternRegistry} {e : Enemy}
    (h : (Board.enemyOf load root i spec patterns).Yields (e, patterns')) :
    e.position = spec.position ∧
      e.strategy = (patterns'.resolve i spec.pattern spec.axis spec.positive).1 := by
  unfold Board.enemyOf at h
  simp only at h
  split at h
  · obtain ⟨ps, -, h⟩ := yields_bind h
    obtain ⟨-, -, h⟩ := yields_bind h
    obtain ⟨rfl, rfl⟩ := Prod.mk.inj (yields_pure h)
    exact ⟨rfl, rfl⟩
  · obtain ⟨_, -, h⟩ := yields_bind h
    obtain ⟨ps, -, h⟩ := yields_bind h
    obtain ⟨-, -, h⟩ := yields_bind h
    obtain ⟨rfl, rfl⟩ := Prod.mk.inj (yields_pure h)
    exact ⟨rfl, rfl⟩

theorem Board.enemiesFrom_positions {load : Loader} {root : Option Path} {i : Nat} {specs : List EnemySpec}
    {patterns patterns' : PatternRegistry} {enemies : List Enemy}
    (h : (Board.enemiesFrom load root i specs patterns).Yields (enemies, patterns')) :
    enemies.map (·.position) = specs.map (·.position) := by
  induction specs generalizing i patterns patterns' enemies with
  | nil =>
    have he := yields_pure h
    rw [(Prod.mk.inj he).1]
    rfl
  | cons spec specs ih =>
    unfold Board.enemiesFrom at h
    obtain ⟨⟨e, p⟩, he, h⟩ := yields_bind h
    obtain ⟨⟨es, q⟩, hes, h⟩ := yields_bind h
    have hl := yields_pure h
    rw [(Prod.mk.inj hl).1, List.map_cons, List.map_cons, ih hes, (enemyOf_spec he).1]

theorem Item.build_spec {load : Loader} {root : Option Path} {spec : ItemSpec} {place : Position}
    {i : Item} (h : (Item.build load root spec place).Yields i) :
    i.position = place ∧ i.collected = false := by
  obtain ⟨base, -, h⟩ := yields_bind h
  rw [yields_pure h]
  exact ⟨rfl, rfl⟩

/-- Every item that is placed is made from one of the descriptions, and has not been collected. -/
theorem Campaign.placeItems_spec {c : Campaign} {hasScanner : Bool} {specs : List ItemSpec}
    {items : List Item} (h : (c.placeItems hasScanner specs).Yields items) :
    ∀ i ∈ items, (∃ spec ∈ specs, spec.position = some i.position) ∧ i.collected = false := by
  induction specs generalizing items with
  | nil =>
    rw [yields_pure h]
    exact fun i hi => absurd hi List.not_mem_nil
  | cons spec specs ih =>
    have later : ∀ {rest : List Item}, (c.placeItems hasScanner specs).Yields rest → ∀ i ∈ rest,
        (∃ d ∈ spec :: specs, d.position = some i.position) ∧ i.collected = false := fun hr i hi => by
      obtain ⟨⟨d, hd, hp⟩, hfresh⟩ := ih hr i hi
      exact ⟨⟨d, List.mem_cons_of_mem _ hd, hp⟩, hfresh⟩
    unfold Campaign.placeItems at h
    split at h
    · obtain ⟨-, -, h⟩ := yields_bind h
      exact later h
    · rename_i place hplace
      split at h
      · exact later h
      · obtain ⟨i, hi, h⟩ := yields_bind h
        obtain ⟨rest, hr, h⟩ := yields_bind h
        rw [yields_pure h]
        intro j hj
        rcases List.mem_cons.1 hj with rfl | hj
        · obtain ⟨hposition, hfresh⟩ := Item.build_spec hi
          exact ⟨⟨spec, List.mem_cons_self, by rw [hposition, hplace]⟩, hfresh⟩
        · exact later hr j hj

namespace LevelEntry

/-- The entry is what reading the files of a level of the campaign gives. -/
structure Prepared (c : Campaign) (e : LevelEntry) : Prop where
  /-- The level is the campaign's. -/
  level : c.level? e.index = some e.spec
  /-- The enemies and what was noted about them come from the pattern files. -/
  enemies : (Board.enemiesFrom c.loader c.root 0 e.spec.enemies {}).outcome =
    (.ok (e.enemies, e.patterns), e.boardNotes)
  /-- The items and what was noted about them come from the item files. -/
  items : (c.placeItems (e.robot.hasItem Item.scannerName) e.spec.items).outcome =
    (.ok e.items, e.itemNotes)
  /-- The robot is a fresh one on the start tile. -/
  robot : ∃ progress, e.robot = Robot.carrying e.spec.start progress

/-- The entry belongs to a level of the campaign, and everything stands where that level has it. -/
structure Valid (c : Campaign) (e : LevelEntry) : Prop where
  /-- The level is the campaign's. -/
  level : c.level? e.index = some e.spec
  /-- The enemies stand where they are listed. -/
  enemies : e.enemies.map (·.position) = e.spec.enemies.map (·.position)
  /-- The items lie where the level has them, and have not been collected. -/
  items : ∀ i ∈ e.items, (∃ d ∈ e.spec.items, d.position = some i.position) ∧ i.collected = false
  /-- The robot stands on the start tile. -/
  start : e.robot.position = e.spec.start
  /-- The robot does not grab at every step. -/
  autoGrab : e.robot.autoGrab = false

theorem carrying_carrying (start : Position) (progress : Option Robot) :
    Robot.carrying start (some (Robot.carrying start progress)) = Robot.carrying start progress := by
  cases progress <;> rfl

theorem Prepared.valid {c : Campaign} {e : LevelEntry} (h : e.Prepared c) : e.Valid c := by
  obtain ⟨progress, hr⟩ := h.robot
  refine ⟨h.level, Board.enemiesFrom_positions (yields_of_outcome h.enemies),
    Campaign.placeItems_spec (yields_of_outcome h.items), ?_, ?_⟩
  · rw [hr]
    cases progress <;> rfl
  · rw [hr]
    cases progress <;> rfl

theorem Valid.enemies_inside {c : Campaign} {e : LevelEntry} (h : e.Valid c) {d : Enemy}
    (hd : d ∈ e.enemies) : inside e.spec.width e.spec.height d.position = true := by
  have hm : d.position ∈ e.spec.enemies.map (·.position) := by
    rw [← h.enemies]
    exact List.mem_map_of_mem hd
  obtain ⟨s, hs, hp⟩ := List.mem_map.1 hm
  rw [← hp]
  exact e.spec.enemies_inside hs

theorem Valid.items_inside {c : Campaign} {e : LevelEntry} (h : e.Valid c) {i : Item} (hi : i ∈ e.items) :
    inside e.spec.width e.spec.height i.position = true := by
  obtain ⟨⟨d, hd, hp⟩, -⟩ := h.items i hi
  exact e.spec.items_inside hd hp

/-- Reading the files anew leaves an entry valid, whatever they hold now. -/
theorem Valid.refresh {c : Campaign} {e : LevelEntry} (h : e.Valid c) (load : Loader) :
    (Campaign.refresh { c with loader := load } e).Valid { c with loader := load } := by
  unfold Campaign.refresh
  simp only
  split
  · rename_i enemies patterns boardNotes items itemNotes he hi
    exact ⟨h.level, Board.enemiesFrom_positions (yields_of_outcome he),
      Campaign.placeItems_spec (yields_of_outcome hi), h.start, h.autoGrab⟩
  · exact ⟨h.level, h.enemies, h.items, h.start, h.autoGrab⟩

variable {σ : Type} [WordSource σ]

/-- A level that is entered is begun from an entry that its files prepare. -/
theorem prepared_of_enter {c : Campaign} {index : Int} {progress : Option Robot} {credits : Int} {g g' : σ}
    {play : Play} {notes : List Log.Entry}
    (h : c.enter index progress credits g = (.ok play, g', notes)) :
    ∃ e : LevelEntry, e.Prepared c ∧ e.index = index ∧ e.credits = credits ∧
      e.robot = Robot.carrying e.spec.start progress ∧ e.begin g = (play, g', notes) := by
  unfold Campaign.enter at h
  split at h
  · cases h
  · rename_i spec hspec
    split at h
    · cases h
    · rename_i enemies patterns boardNotes he
      rcases hitems : (c.placeItems ((Robot.carrying spec.start progress).hasItem Item.scannerName)
        spec.items).outcome with ⟨items, itemNotes⟩
      simp only [hitems] at h
      cases items with
      | error failure => cases h
      | ok items =>
        cases h
        exact ⟨⟨index, spec, enemies, patterns, items, Robot.carrying spec.start progress, credits,
          boardNotes, itemNotes⟩, ⟨hspec, he, hitems, progress, rfl⟩, rfl, rfl, rfl, rfl⟩

/-- Entering a level again with the robot and the credits of an entry, its files read once more, begins
the level from that very entry. -/
theorem Prepared.enter {c : Campaign} {e : LevelEntry} (h : e.Prepared c) (g : σ) :
    c.enter e.index (some e.robot) e.credits g = (.ok (e.begin g).1, (e.begin g).2) := by
  obtain ⟨progress, hr⟩ := h.robot
  have hcarry : Robot.carrying e.spec.start (some e.robot) = e.robot := by
    rw [hr, carrying_carrying]
  unfold Campaign.enter
  simp only [h.level, h.enemies, hcarry, h.items]
  rfl

/-! ## The beginning of a level -/

/-- The board of a level that begins: set up, with the robot on its start. -/
theorem begin_board (e : LevelEntry) (g : σ) :
    (e.begin g).1.board =
      ((Board.setUp e.spec e.enemies e.patterns g).1.visit e.spec.start).revealAround e.spec.start := rfl

theorem setUp_start_inside (e : LevelEntry) (g : σ) :
    (Board.setUp e.spec e.enemies e.patterns g).1.inBounds e.spec.start = true := by
  obtain ⟨known, blockers, scattered, spawned, he, -⟩ := Board.setUp_spec e.spec e.enemies e.patterns g
  rw [he]
  exact e.spec.start_inside

theorem begin_size (e : LevelEntry) (g : σ) :
    (e.begin g).1.board.width = e.spec.width ∧ (e.begin g).1.board.height = e.spec.height := by
  obtain ⟨known, blockers, scattered, spawned, he, -⟩ := Board.setUp_spec e.spec e.enemies e.patterns g
  have hdevelops := Board.visit_revealAround_develops (e.setUp_start_inside g)
  rw [begin_board, hdevelops.width, hdevelops.height, he]
  exact ⟨rfl, rfl⟩

theorem begin_visited (e : LevelEntry) (g : σ) : e.spec.start ∈ (e.begin g).1.board.visited := by
  rw [begin_board]
  exact Board.mem_visited_visit_revealAround (e.setUp_start_inside g)

/-- Random enemies keep away from the start. -/
theorem begin_enemies (e : LevelEntry) (g : σ) :
    ∃ new, (e.begin g).1.board.enemies = e.enemies ++ new ∧ ∀ d ∈ new, d.position ≠ e.spec.start := by
  obtain ⟨known, blockers, scattered, spawned, he, -, -, hhazards⟩ := Board.setUp_spec e.spec e.enemies e.patterns g
  obtain ⟨known', hv, -⟩ := Board.visit_revealAround_spec (e.setUp_start_inside g)
  refine ⟨spawned, ?_, fun d hd => ?_⟩
  · rw [begin_board, hv, he]
  · exact (Board.canSpawn_iff.1 (hhazards.spawned_clear d hd).2.1).1

theorem Valid.begin_wellFormed {c : Campaign} {e : LevelEntry} (h : e.Valid c) (g : σ) :
    (e.begin g).1.board.WellFormed := by
  have hs := Board.setUp_wellFormed e.spec e.patterns (fun d hd => h.enemies_inside hd) g
  rw [begin_board]
  exact hs.visit_revealAround (e.setUp_start_inside g)

end LevelEntry

end ScriptedRobot
