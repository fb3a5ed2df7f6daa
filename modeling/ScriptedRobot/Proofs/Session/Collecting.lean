import ScriptedRobot.Proofs.Robot.Reach
import ScriptedRobot.Proofs.Session.Lasting
import ScriptedRobot.Proofs.Session.Losses

/-!
# What a grab takes

Of the items that lie on a tile only the first is collected, so a grab takes one item from each tile in reach, and
whatever lies below it stays (`grab_takes_first`). All tiles that are in reach at its end are known then. Where two
items lie on one tile, the second is left behind (`bench_left`).
-/

namespace ScriptedRobot

namespace ItemStore

/-- The items that lie on a tile, in the order in which they are collected. -/
def lying (s : ItemStore) (p : Position) : List Item := s.items.filter (Item.liesAt p)

theorem itemAt?_eq_head? (s : ItemStore) (p : Position) : s.itemAt? p = (s.lying p).head? := List.head?_filter.symm

theorem collectAt_none {s t : ItemStore} {p : Position} (h : s.collectAt p = (none, t)) : s.itemAt? p = none := by
  unfold collectAt at h
  split at h
  · assumption
  · cases h

theorem itemAt?_of_collectAt {s t : ItemStore} {p : Position} {i : Item} (h : s.collectAt p = (some i, t)) :
    ∃ j, s.itemAt? p = some j ∧ i = j.taken := by
  obtain ⟨before, j, after, hs, -, hi, lies, others⟩ := collectAt_split h
  refine ⟨j, List.find?_eq_some_iff_append.2 ⟨lies, before, after, hs, fun k hk => ?_⟩, hi⟩
  rw [others k hk]
  rfl

/-- The first item on the tile lies there no longer, and all others lie where they did. -/
theorem lying_of_collectAt {s t : ItemStore} {p : Position} {i : Item} (h : s.collectAt p = (some i, t))
    (q : Position) : t.lying q = if q = p then (s.lying q).tail else s.lying q := by
  obtain ⟨before, j, after, hs, ht, rfl, lies, others⟩ := collectAt_split h
  have htaken : Item.liesAt q { j with collected := true } = false := by simp [Item.liesAt]
  simp only [lying, hs, ht, List.filter_append, List.filter_cons, htaken]
  by_cases hq : q = p
  · subst hq
    have hbefore : before.filter (Item.liesAt q) = [] := by
      rw [List.filter_eq_nil_iff]
      exact fun k hk => by simp [others k hk]
    simp [hbefore, lies]
  · have hplace : j.position = p := (Item.liesAt_iff.1 lies).1
    have helsewhere : j.liesAt q = false := by simp [Item.liesAt, hplace, Ne.symm hq]
    simp [hq, helsewhere]

end ItemStore

namespace Session

open Gain

variable {σ : Type} {levels : List LevelSpec}

theorem mem_reach {s : Session σ} {p : Position} : p ∈ s.reach ↔
    s.play.board.inBounds p = true ∧ (s.play.robot.position.distance p : Int) ≤ s.play.robot.grabberRange :=
  Robot.mem_grabberTiles

theorem nodup_reach (s : Session σ) : s.reach.Nodup := Robot.nodup_grabberTiles _ _ _

/-- Whatever lies near enough lies on the board, and so in reach. -/
theorem WellFormed.mem_reach_of_lying {s : Session σ} (h : s.WellFormed) {p : Position} {i : Item}
    (lies : i ∈ s.play.items.lying p)
    (near : (s.play.robot.position.distance p : Int) ≤ s.play.robot.grabberRange) : p ∈ s.reach := by
  obtain ⟨hi, hp⟩ := List.mem_filter.1 lies
  have hplace : i.position = p := (Item.liesAt_iff.1 hp).1
  exact mem_reach.2 ⟨hplace ▸ h.items_inside i hi, near⟩

/-! ## Collecting on some tiles -/

theorem items_collect (s : Session σ) (items : ItemStore) (i : Item) :
    ((s.onPlay fun play => { play with items := items }).applyItem i).play.items = items := by
  obtain ⟨timeSlow, he⟩ := (s.onPlay fun play => { play with items := items }).applyItem_spec i
  rw [he]
  rfl

/-- Each of the tiles loses its first item, and no other tile loses any. -/
theorem lying_collectAll {ps : List Position} (once : ps.Nodup) (s : Session σ) (q : Position) :
    (collectAll ps s).1.play.items.lying q =
      if q ∈ ps then (s.play.items.lying q).tail else s.play.items.lying q := by
  induction ps generalizing s with
  | nil => rfl
  | cons p ps ih =>
    obtain ⟨hp, hps⟩ := List.nodup_cons.1 once
    rcases hc : s.play.items.collectAt p with ⟨_ | i, items⟩
    · have hnothing : s.play.items.lying p = [] := by
        rw [← List.head?_eq_none_iff, ← ItemStore.itemAt?_eq_head?]
        exact ItemStore.collectAt_none hc
      simp only [collectAll, hc]
      rw [ih hps]
      by_cases hq : q = p
      · subst hq
        simp [hnothing]
      · simp [hq]
    · have hfirst := ItemStore.lying_of_collectAt hc q
      simp only [collectAll, hc]
      rw [ih hps, items_collect, hfirst]
      by_cases hq : q = p
      · subst hq
        simp [hp]
      · simp [hq]

/-- What is collected is the first item of each tile. -/
theorem found_collectAll {ps : List Position} (once : ps.Nodup) (s : Session σ) :
    (collectAll ps s).2 = (ps.filterMap s.play.items.itemAt?).map Item.taken := by
  induction ps generalizing s with
  | nil => rfl
  | cons p ps ih =>
    obtain ⟨hp, hps⟩ := List.nodup_cons.1 once
    rcases hc : s.play.items.collectAt p with ⟨_ | i, items⟩
    · simp only [collectAll, hc]
      rw [ih hps, List.filterMap_cons_none (ItemStore.collectAt_none hc)]
    · obtain ⟨j, hj, rfl⟩ := ItemStore.itemAt?_of_collectAt hc
      -- the tiles that follow are others, so what lies there has not changed
      have hrest : ps.filterMap items.itemAt? = ps.filterMap s.play.items.itemAt? := by
        refine List.filterMap_congr fun q hq => ?_
        have hother : q ≠ p := fun hsame => hp (hsame ▸ hq)
        rw [ItemStore.itemAt?_eq_head?, ItemStore.itemAt?_eq_head?, ItemStore.lying_of_collectAt hc, if_neg hother]
      simp only [collectAll, hc]
      rw [ih hps, items_collect, hrest, List.filterMap_cons_some hj, List.map_cons]

theorem items_map_item (is : List Item) : Gain.items (is.map .item) = is := by
  simp [Gain.items, List.filterMap_map]

theorem claims_map_item (is : List Item) : claims (is.map .item) = [] := by
  simp [claims, List.filterMap_map]

theorem play_checkCompletion (s : Session σ) :
    s.checkCompletion.play = { s.play with finished := s.play.finished || s.isComplete } := by
  unfold checkCompletion
  split
  · rename_i finished
    rw [finished, Bool.true_or, ← finished]
  · rename_i unfinished
    rw [Bool.eq_false_iff.2 unfinished, Bool.false_or]
    split
    · rename_i complete
      rw [complete]
      rfl
    · rename_i incomplete
      rw [Bool.eq_false_iff.2 incomplete, ← Bool.eq_false_iff.2 unfinished]

/-- What is gained by a grab: an item from each tile in reach, and tiles that become known. -/
theorem gains_grab (s : Session σ) : Gain.items (Recorder.gains.grab s) =
      (s.reach.filterMap s.play.items.itemAt?).map Item.taken ∧
    claims (Recorder.gains.grab s) = s.revealed s.grab.1 ∧ bonuses (Recorder.gains.grab s) = [] := by
  simp only [Recorder.gains, items_append, claims_append, bonuses_append, items_map_item, claims_map_item,
    items_map_claimed, found_collectAll s.nodup_reach]
  refine ⟨List.append_nil _, ?_, ?_⟩
  · simp [claims, List.filterMap_map]
  · simp [bonuses, List.filterMap_map]

/-- The bonus is for what has been discovered until the level is completed. -/
theorem bonuses_check (s : Session σ) : ((bonuses (Recorder.gains.check s)).sum : Int) =
    if s.checkCompletion.play.finished && !s.play.finished then (s.checkCompletion.play.discovered : Int) else 0 := by
  rw [play_checkCompletion]
  cases hfinished : s.play.finished <;> cases hcomplete : s.isComplete <;>
    simp [Recorder.gains, bonuses, hfinished, hcomplete]

theorem grab_allowed (s : Session σ) : Command.grab.kind ∈ s.availableFunctions := by
  simp [availableFunctions, Robot.availableFunctions, Command.kind]

variable [WordSource σ]

/-- The robot carries whatever it has collected. -/
theorem carried_collectAll (ps : List Position) (s : Session σ) :
    ∀ i ∈ (collectAll ps s).2, i.name ∈ (collectAll ps s).1.play.robot.inventory := by
  induction ps generalizing s with
  | nil => exact fun i hi => absurd hi List.not_mem_nil
  | cons p ps ih =>
    rcases hc : s.play.items.collectAt p with ⟨_ | i, items⟩
    · simp only [collectAll, hc]
      exact ih s
    · simp only [collectAll, hc]
      refine List.forall_mem_cons.2 ⟨?_, ih _⟩
      refine (collectAll_steps ps _).steps.progress.carried _ ?_
      obtain ⟨timeSlow, he⟩ := (s.onPlay fun play => { play with items := items }).applyItem_spec i
      rw [he]
      exact mem_inventory_equip (.inr rfl)

/-! ## The command -/

/-- The end of a turn moves enemies and runs counts down, and that is all. -/
theorem play_endTurn {s : Session σ} (clear : s.endTurn.collided = false) :
    ∃ enemies stunned removed, s.endTurn.play =
      { s.play with board := { s.play.board with enemies := enemies }, stunned := stunned, removed := removed } := by
  rcases endTurn_of_clear clear with ⟨-, -, he⟩ | ⟨-, he⟩
  · obtain ⟨enemies, hmoved⟩ := s.moveEnemies_play
    refine ⟨enemies, s.moveEnemies.tickStatus.play.stunned, s.moveEnemies.tickStatus.play.removed, ?_⟩
    rw [he, tickStatus, onPlay, hmoved]
  · refine ⟨s.play.board.enemies, s.tickStatus.play.stunned, s.tickStatus.play.removed, ?_⟩
    rw [he]
    rfl

theorem perform_grab (s : Session σ) : s.perform .grab = (s.grab.1.endTurn, .ok s.grab.2) := rfl

/-- A grab that meets no enemy ends its turn and completes the level if it is time. -/
theorem execute_grab {s : Session σ} (clear : (s.execute .grab).1.collided = false) :
    s.apart.grab.1.endTurn.collided = false ∧ (s.execute .grab).1 =
      s.apart.grab.1.endTurn.checkCompletion.report (.executed .grab s.apart.grab.2.text) := by
  have hclear : s.apart.grab.1.endTurn.collided = false := by
    by_contra meets
    rw [execute_met s.grab_allowed s.apart.perform_grab (by simpa using meets)] at clear
    exact meets clear
  rw [execute_answered s.grab_allowed s.apart.perform_grab hclear]
  exact ⟨hclear, rfl⟩

/-- A grab that meets no enemy leaves of the level what it has made of it itself, but for enemies that move, counts
that run down and perhaps the completion of the level. -/
theorem play_execute_grab {s : Session σ} (clear : (s.execute .grab).1.collided = false) :
    ∃ enemies stunned removed finished, (s.execute .grab).1.play =
      { s.apart.grab.1.play with
        board := { s.apart.grab.1.play.board with enemies := enemies }
        stunned := stunned
        removed := removed
        finished := finished } := by
  obtain ⟨hclear, he⟩ := execute_grab clear
  obtain ⟨enemies, stunned, removed, hturn⟩ := play_endTurn hclear
  refine ⟨enemies, stunned, removed, (s.execute .grab).1.play.finished, ?_⟩
  rw [he, report, play_checkCompletion, hturn]

/-- What a grab comes to. -/
structure Grabs (s t : Session σ) : Prop where
  /-- On a tile in reach the first item lies no longer, and nothing else is moved. -/
  lying : ∀ p, t.play.items.lying p =
    if (s.play.robot.position.distance p : Int) ≤ s.play.robot.grabberRange then (s.play.items.lying p).tail
    else s.play.items.lying p
  /-- The robot carries the first item of each tile in reach. -/
  carried : ∀ p, (s.play.robot.position.distance p : Int) ≤ s.play.robot.grabberRange →
    ∀ i ∈ (s.play.items.lying p).head?, i.name ∈ t.play.robot.inventory
  /-- Every tile that is in reach now is known. -/
  known : ∀ p, t.play.board.inBounds p = true →
    (t.play.robot.position.distance p : Int) ≤ t.play.robot.grabberRange → p ∈ t.play.board.known

theorem WellFormed.grabs {s : Session σ} (h : s.WellFormed) : Grabs s s.grab.1 := by
  obtain ⟨known, hrevealed, hknown⟩ :=
    (collectAll s.reach s).1.play.board.revealAll_spec (collectAll s.reach s).1.reach
  have hitems : s.grab.1.play.items = (collectAll s.reach s).1.play.items := by
    rw [s.grab_play.1]
    rfl
  have hrobot : s.grab.1.play.robot = (collectAll s.reach s).1.play.robot := by
    rw [s.grab_play.1]
    rfl
  have hboard : s.grab.1.play.board = { (collectAll s.reach s).1.play.board with known := known } := by
    rw [s.grab_play.1, ← hrevealed]
    rfl
  refine ⟨fun p => ?_, fun p near i hi => ?_, fun p hinside near => ?_⟩
  · rw [hitems, lying_collectAll s.nodup_reach]
    by_cases near : (s.play.robot.position.distance p : Int) ≤ s.play.robot.grabberRange
    · rw [if_pos near]
      -- where nothing lies, as beside the board, nothing is taken
      cases hlying : s.play.items.lying p with
      | nil => simp
      | cons i rest => rw [if_pos (h.mem_reach_of_lying (hlying ▸ List.mem_cons_self) near)]
    · rw [if_neg near, if_neg fun hp => near (mem_reach.1 hp).2]
  · have hreach := h.mem_reach_of_lying (List.mem_of_mem_head? hi) near
    have hfirst : s.play.items.itemAt? p = some i := (s.play.items.itemAt?_eq_head? p).trans hi
    have hfound : i.taken ∈ (collectAll s.reach s).2 := by
      rw [found_collectAll s.nodup_reach]
      exact List.mem_map_of_mem (List.mem_filterMap.2 ⟨p, hreach, hfirst⟩)
    rw [hrobot]
    exact carried_collectAll s.reach s i.taken hfound
  · rw [hboard] at hinside ⊢
    rw [hrobot] at near
    exact (hknown p).2 (.inr ⟨mem_reach.2 ⟨hinside, near⟩, hinside⟩)

theorem Reachable.credits_grab {s : Session σ} (h : Reachable levels s)
    (clear : (s.execute .grab).1.collided = false) : (s.execute .grab).1.credits =
      s.credits + ((s.reach.filterMap s.play.items.itemAt?).map Item.worth).sum +
        s.play.board.income * (s.revealed (s.execute .grab).1).length +
        if (s.execute .grab).1.play.finished && !s.play.finished then ((s.execute .grab).1.play.discovered : Int)
        else 0 := by
  obtain ⟨hclear, he⟩ := execute_grab clear
  obtain ⟨enemies, stunned, removed, hturn⟩ := play_endTurn hclear
  obtain ⟨-, hclaims, hbonuses⟩ := s.apart.gains_grab
  have hitems : Gain.items (Recorder.gains.grab s.apart) =
      (s.reach.filterMap s.play.items.itemAt?).map Item.taken := s.apart.gains_grab.1
  obtain ⟨hnoItems, hnoClaims⟩ := s.apart.grab.1.endTurn.gains_check
  have hgains : Recorder.gains.visit ⟨s, .grab⟩ =
      Recorder.gains.grab s.apart ++ Recorder.gains.check s.apart.grab.1.endTurn := by
    rw [Recorder.visit_of_answered (v := ⟨s, .grab⟩) s.grab_allowed s.apart.perform_grab]
    exact congrArg (· ++ _) (List.append_nil _)
  have hworth : ((s.reach.filterMap s.play.items.itemAt?).map Item.taken).map Item.worth =
      (s.reach.filterMap s.play.items.itemAt?).map Item.worth := List.map_map
  have hrevealed : s.apart.revealed s.apart.grab.1 = s.revealed (s.execute .grab).1 := by
    obtain ⟨_, _, _, _, hplay⟩ := play_execute_grab clear
    rw [revealed, revealed, hplay]
    rfl
  have hfinished : s.apart.grab.1.endTurn.play.finished = s.play.finished := by
    rw [hturn]
    exact (grab_steps s.apart).unchanged (·.play.finished) fun hd hstep =>
      hstep.finished_eq (by rintro rfl; revert hd; decide)
  have hplay : (s.execute .grab).1.play = s.apart.grab.1.endTurn.checkCompletion.play := by
    rw [he]
    rfl
  rw [(h.earns clear).1, hgains, items_append, claims_append, bonuses_append, hitems, hclaims, hbonuses, hnoItems,
    hnoClaims, List.append_nil, List.append_nil, List.nil_append, bonuses_check, hfinished, ← hplay, hworth,
    hrevealed]

/-- A grab that meets no enemy takes the first item from each tile in reach, and makes all tiles known that are in
reach then. The items and the tiles are paid for, and there is the bonus if the level is complete. -/
theorem Reachable.grab_takes_first {s : Session σ} (h : Reachable levels s)
    (clear : (s.execute .grab).1.collided = false) : Grabs s (s.execute .grab).1 ∧
      (s.execute .grab).1.credits = s.credits + ((s.reach.filterMap s.play.items.itemAt?).map Item.worth).sum +
        s.play.board.income * (s.revealed (s.execute .grab).1).length +
        if (s.execute .grab).1.play.finished && !s.play.finished then ((s.execute .grab).1.play.discovered : Int)
        else 0 := by
  obtain ⟨enemies, stunned, removed, finished, hplay⟩ := play_execute_grab clear
  have hapart : Reachable levels s.apart := h.records rfl rfl rfl
  have hgrabs : Grabs s.apart s.apart.grab.1 := hapart.wellFormed.grabs
  refine ⟨⟨fun p => ?_, fun p near i hi => ?_, fun p hinside near => ?_⟩, h.credits_grab clear⟩
  · rw [hplay]
    exact hgrabs.lying p
  · rw [hplay]
    exact hgrabs.carried p near i hi
  · rw [hplay] at hinside near ⊢
    exact hgrabs.known p hinside near

/-- A bench with two things on its left end and one on its right. -/
def bench : LevelSpec where
  name := "Bench"
  width := 3
  height := 1
  start := ⟨0, 0⟩
  items := [{ name := "coin", position := some ⟨0, 0⟩ }, { name := "gem", position := some ⟨0, 0⟩ },
    { name := "key", position := some ⟨2, 0⟩ }]
  width_pos := courtyard.width_pos
  height_pos := Int.one_pos
  placed_inside := by decide

/-- A session that starts at the left end. -/
def onBench : Session Random.Twister :=
  ((start ⟨[bench], Loader.ofTexts [], none⟩ ⟨Vector.replicate _ 0, 0⟩ 0).1.toOption).get (by decide)

theorem onBench_starts : (start ⟨[bench], Loader.ofTexts [], none⟩
    (⟨Vector.replicate _ 0, 0⟩ : Random.Twister) 0).1 = .ok onBench := rfl

theorem grab_takes_first_bench : (onBench.execute .grab).1.collided = false ∧
    (onBench.play.items.lying ⟨0, 0⟩).map (·.name) = ["coin", "gem"] ∧
      (onBench.execute .grab).1.play.items.lying ⟨0, 0⟩ = (onBench.play.items.lying ⟨0, 0⟩).tail := by
  have clear : (onBench.execute .grab).1.collided = false := by decide +kernel
  refine ⟨clear, by decide +kernel, ?_⟩
  rw [(Reachable.grab_takes_first (.start rfl onBench_starts) clear).1.lying]
  exact if_pos (by decide +kernel)

/-- The second of two things on one tile is neither taken nor paid for. -/
theorem bench_left : Reachable [bench] onBench ∧ (onBench.execute .grab).1.collided = false ∧
    ¬ ∀ p, (onBench.play.robot.position.distance p : Int) ≤ onBench.play.robot.grabberRange →
      (onBench.execute .grab).1.play.items.lying p = [] ∧
        ∀ i ∈ onBench.play.items.lying p, i.name ∈ (onBench.execute .grab).1.play.robot.inventory := by
  refine ⟨.start rfl onBench_starts, by decide +kernel, fun all => ?_⟩
  have hleft : (onBench.execute .grab).1.play.items.lying ⟨0, 0⟩ ≠ [] := by decide +kernel
  exact hleft (all ⟨0, 0⟩ (by decide +kernel)).1

end Session

end ScriptedRobot
