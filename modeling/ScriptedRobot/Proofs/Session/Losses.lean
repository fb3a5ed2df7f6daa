import Mathlib
import ScriptedRobot.Proofs.Session.Credits

/-!
# When credits are lost

Tiles and bonuses only add to the credits, so a command that meets no enemy leaves fewer of them only if it collects
an item that is worth less than nothing (`credits_fall_for_items`). `Takes` says of what is gained by a command that
its items lay about before. Nothing keeps a level from having such an item (`credits_fallen`).
-/

namespace ScriptedRobot

open Gain

/-- The item as it is when it has been collected. -/
def Item.taken (i : Item) : Item := { i with collected := true }

namespace ItemStore

/-- An item that still lies about is one that lay about before. -/
theorem Develops.active {s t : ItemStore} (h : s.Develops t) {i : Item} (hi : i ∈ t.active) : i ∈ s.active := by
  obtain ⟨hi, uncollected⟩ := List.mem_filter.1 hi
  obtain ⟨j, hj, rfl | rfl⟩ := h.mem hi
  · exact List.mem_filter.2 ⟨hj, uncollected⟩
  · cases uncollected

/-- What is collected on a tile lay about. -/
theorem active_of_collectAt {s t : ItemStore} {p : Position} {i : Item} (h : s.collectAt p = (some i, t)) :
    ∃ j ∈ s.active, i = j.taken := by
  obtain ⟨before, j, after, hs, -, hi, lies, -⟩ := collectAt_split h
  refine ⟨j, List.mem_filter.2 ⟨?_, by simp [(Item.liesAt_iff.1 lies).2]⟩, hi⟩
  rw [hs]
  exact List.mem_append_right _ List.mem_cons_self

end ItemStore

namespace Session

variable {σ : Type} {levels : List LevelSpec}

/-! ## The items among the gains -/

/-- The items among the gains lay about before, and no others have come since. -/
structure Takes (gs : List Gain) (s t : Session σ) : Prop where
  items : s.play.items.Develops t.play.items
  taken : ∀ i ∈ Gain.items gs, ∃ j ∈ s.play.items.active, i = j.taken

theorem Takes.of_items {gs : List Gain} {s t : Session σ} (items : s.play.items.Develops t.play.items)
    (none : Gain.items gs = []) : Takes gs s t := by
  refine ⟨items, fun i hi => ?_⟩
  rw [none] at hi
  cases hi

theorem Takes.trans {as bs : List Gain} {s t u : Session σ} (h : Takes as s t) (k : Takes bs t u) :
    Takes (as ++ bs) s u := by
  refine ⟨h.items.trans k.items, fun i hi => ?_⟩
  rw [items_append, List.mem_append] at hi
  rcases hi with hi | hi
  · exact h.taken i hi
  · obtain ⟨j, hj, he⟩ := k.taken i hi
    exact ⟨j, h.items.active hj, he⟩

theorem items_map_claimed (ps : List Position) : Gain.items (ps.map .claimed) = [] := by
  simp [Gain.items, List.filterMap_map]

theorem items_map_scanned (ps : List Position) : Gain.items (ps.map .scanned) = [] := by
  simp [Gain.items, List.filterMap_map]

/-- What is gained by completing a level is a bonus, if anything. -/
theorem gains_check (s : Session σ) :
    Gain.items (Recorder.gains.check s) = [] ∧ claims (Recorder.gains.check s) = [] := by
  simp only [Recorder.gains]
  split <;> exact ⟨rfl, rfl⟩

theorem takes_collectAll (ps : List Position) (s : Session σ) :
    Takes ((collectAll ps s).2.map .item) s (collectAll ps s).1 := by
  induction ps generalizing s with
  | nil => exact .of_items (.refl _) rfl
  | cons p ps ih =>
    rcases hc : s.play.items.collectAt p with ⟨_ | i, items⟩
    · simp only [collectAll, hc]
      exact ih s
    · simp only [collectAll, hc]
      have hfirst : Takes [.item i] s ((s.onPlay fun play => { play with items := items }).applyItem i) := by
        obtain ⟨timeSlow, he⟩ := (s.onPlay fun play => { play with items := items }).applyItem_spec i
        refine ⟨?_, fun k hk => ?_⟩
        · rw [he]
          exact ItemStore.collectAt_develops hc
        · cases List.mem_singleton.1 hk
          exact ItemStore.active_of_collectAt hc
      exact hfirst.trans (ih _)

theorem takes_grab (s : Session σ) : Takes (Recorder.gains.grab s) s s.grab.1 := by
  have hcollected := takes_collectAll s.reach s
  have hitems : s.grab.1.play.items = (collectAll s.reach s).1.play.items := by
    rw [s.grab_play.1]
    rfl
  refine ⟨hitems ▸ hcollected.items, fun i hi => ?_⟩
  simp only [Recorder.gains, items_append, items_map_claimed, List.append_nil] at hi
  exact hcollected.taken i hi

variable [WordSource σ]

theorem takes_tracks : (Recorder.gains : Recorder σ Gain).Tracks Takes where
  records := fun play _ => .of_items (play ▸ .refl _) rfl
  trans := .trans
  step := fun hstep _ => .of_items hstep.progress.items rfl
  grab := takes_grab
  scan := fun s _ => .of_items (scanAll_steps _ s).steps.progress.items (items_map_scanned _)
  turn := fun {s} clear => .of_items ((endTurn_outcome s).steps clear).steps.progress.items rfl
  check := fun s => .of_items (checkCompletion_steps s).progress.items s.gains_check.1

/-! ## What a tile is worth -/

/-- A tile is worth what the level says, so it is never a loss. -/
theorem Reachable.income {s : Session σ} (h : Reachable levels s) : s.play.board.income = s.spec.income := by
  have invariant : Invariant levels fun s : Session σ => s.play.board.income = s.spec.income :=
    { begins := fun {s} _ hb => by
        obtain ⟨g, hb⟩ := hb
        obtain ⟨known, blockers, scattered, spawned, he, -⟩ :=
          Board.setUp_spec s.play.entry.spec s.play.entry.enemies s.play.entry.patterns g
        have hdevelops := Board.visit_revealAround_develops (s.play.entry.setUp_start_inside g)
        have hboard : s.play.board = (s.play.entry.begin g).1.board := congrArg Play.board hb
        rw [hboard, LevelEntry.begin_board, hdevelops.income, he]
        rfl
      step := fun _ hstep same => by
        rw [hstep.progress.board.income, same, spec, spec, hstep.progress.entry]
      reread := fun load same => by
        rw [spec_withLoader]
        exact same
      play := fun play same => by
        rw [spec, play]
        exact same }
  exact (invariant.reachable h).2

/-! ## What a command comes to -/

/-- A command that enters a level gains at most the bonus for completing it at once. -/
theorem gains_of_load {s t : Session σ} {c : Command} {i : Int} (goes : s.destination? c = some i)
    (load : s.apart.load i = (t, .ok ())) : Recorder.gains.visit ⟨s, c⟩ = Recorder.gains.check t := by
  obtain ⟨r, hperform⟩ := perform_of_destination (s := s.apart) goes
  have hentered : s.apart.perform c = (t, .ok r) := by rw [hperform, enterLevel, load]
  rw [Recorder.visit_of_answered (v := ⟨s, c⟩) (allowed_of_destination goes) hentered]
  cases c with
  | skipLevel => rfl
  | gotoLevel n => rfl
  | _ => cases goes

/-- The credits after a command that meets no enemy are those before and what it gains; the items among that lay
about. -/
theorem Reachable.earns {s : Session σ} (h : Reachable levels s) {c : Command}
    (clear : (s.execute c).1.collided = false) :
    (s.execute c).1.credits = s.credits + ((Gain.items (Recorder.gains.visit ⟨s, c⟩)).map Item.worth).sum +
        s.play.board.income * (claims (Recorder.gains.visit ⟨s, c⟩)).length +
        (bonuses (Recorder.gains.visit ⟨s, c⟩)).sum ∧
      ∀ i ∈ Gain.items (Recorder.gains.visit ⟨s, c⟩), ∃ j ∈ s.play.items.active, i = j.taken := by
  by_cases loads : ∃ i t, s.destination? c = some i ∧ s.apart.load i = (t, .ok ())
  · obtain ⟨i, t, goes, load⟩ := loads
    obtain ⟨r, he⟩ := execute_loads goes load
    obtain ⟨-, hcredits, -⟩ := load_ok load
    obtain ⟨hitems, hclaims⟩ := t.gains_check
    have hchecked : t.checkCompletion.credits = s.credits + ((Gain.items (Recorder.gains.check t)).map Item.worth).sum +
        t.play.board.income * (claims (Recorder.gains.check t)).length + (bonuses (Recorder.gains.check t)).sum := by
      rw [show s.credits = t.credits from hcredits.symm]
      exact (accounts_check t).credits
    rw [gains_of_load goes load, he, hitems, hclaims]
    rw [hitems, hclaims] at hchecked
    refine ⟨?_, fun i hi => (List.not_mem_nil hi).elim⟩
    simpa [report] using hchecked
  · have stays : (Visit.mk s c).Stays := ⟨clear, fun i t goes load => loads ⟨i, t, goes, load⟩⟩
    have haccounts := accounts_tracks.execute h.wellFormed stays fun _ => accounts_shot
    have htakes := takes_tracks.execute h.wellFormed stays fun o fires =>
      .of_items (fires_steps fires).steps.progress.items rfl
    exact ⟨haccounts.credits, htakes.taken⟩

/-- Credits are lost only for items. A command that meets no enemy leaves no fewer of them than there were and the
items that it collects are worth. So if there are fewer than before, one of these is worth less than nothing, and it
lay about on the level. -/
theorem credits_fall_for_items {s : Session σ} (h : Reachable levels s) {c : Command}
    (clear : (s.execute c).1.collided = false) :
    s.credits + ((Gain.items (Recorder.gains.visit ⟨s, c⟩)).map Item.worth).sum ≤ (s.execute c).1.credits ∧
      ((s.execute c).1.credits < s.credits →
        ∃ i ∈ s.play.items.active, i.taken ∈ Gain.items (Recorder.gains.visit ⟨s, c⟩) ∧ i.worth < 0) := by
  obtain ⟨hcredits, htaken⟩ := h.earns clear
  have hincome : 0 ≤ s.play.board.income := by
    rw [h.income]
    exact Int.natCast_nonneg _
  have hleast : s.credits + ((Gain.items (Recorder.gains.visit ⟨s, c⟩)).map Item.worth).sum ≤
      (s.execute c).1.credits := by
    have htiles := Int.mul_nonneg hincome (Int.natCast_nonneg (claims (Recorder.gains.visit ⟨s, c⟩)).length)
    omega
  refine ⟨hleast, fun less => ?_⟩
  by_contra harmless
  -- items that are each worth something, or nothing, make no loss together
  have hworth : 0 ≤ ((Gain.items (Recorder.gains.visit ⟨s, c⟩)).map Item.worth).sum := by
    refine List.sum_nonneg fun n hn => ?_
    obtain ⟨i, hi, rfl⟩ := List.mem_map.1 hn
    obtain ⟨j, hj, rfl⟩ := htaken i hi
    by_contra negative
    exact harmless ⟨j, hj, hi, by simpa [Item.worth, Item.taken] using negative⟩
  omega

/-! ## A toll -/

/-- A gate with a toll on its start, and a coin behind it. -/
def tollgate : LevelSpec where
  name := "Tollgate"
  width := 3
  height := 1
  start := ⟨0, 0⟩
  items := [{ name := "toll", position := some ⟨0, 0⟩, overrides := { creditsValue := some (some (-5)) } },
    { name := "coin", position := some ⟨2, 0⟩ }]
  width_pos := courtyard.width_pos
  height_pos := Int.one_pos
  placed_inside := by decide

/-- A session that starts at the gate. -/
def atTollgate : Session Random.Twister :=
  ((start ⟨[tollgate], Loader.ofTexts [], none⟩ ⟨Vector.replicate _ 0, 0⟩ 0).1.toOption).get (by decide)

theorem atTollgate_starts : (start ⟨[tollgate], Loader.ofTexts [], none⟩
    (⟨Vector.replicate _ 0, 0⟩ : Random.Twister) 0).1 = .ok atTollgate := rfl

/-- Whoever grabs at the gate pays the toll. -/
theorem credits_fall_for_items_tollgate :
    (atTollgate.execute .grab).1.collided = false ∧ (atTollgate.execute .grab).1.credits < atTollgate.credits ∧
      ∃ i ∈ atTollgate.play.items.active, i.worth < 0 := by
  have clear : (atTollgate.execute .grab).1.collided = false := by decide +kernel
  have less : (atTollgate.execute .grab).1.credits < atTollgate.credits := by decide +kernel
  obtain ⟨-, hloss⟩ := credits_fall_for_items (.start rfl atTollgate_starts) clear
  obtain ⟨i, hi, -, negative⟩ := hloss less
  exact ⟨clear, less, i, hi, negative⟩

/-- Credits can be lost without an enemy. -/
theorem credits_fallen : Reachable [tollgate] atTollgate ∧ (atTollgate.execute .grab).1.collided = false ∧
    atTollgate.credits = 0 ∧ (atTollgate.execute .grab).1.credits = -5 :=
  ⟨.start rfl atTollgate_starts, by decide +kernel, by decide +kernel, by decide +kernel⟩

end Session

end ScriptedRobot
