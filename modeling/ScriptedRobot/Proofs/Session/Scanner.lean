import Mathlib
import ScriptedRobot.Proofs.Session.Collecting
import ScriptedRobot.Proofs.Session.Equipment

/-!
# When the scanner loses power

A command that meets no enemy equips the robot with the items that it collects, one after the other, and with nothing
else (`Reachable.outfits`), so nothing that is carried is lost. Most items only ever extend the view of the scanner. A
scanner, though, sets its power to its own range, whatever the power was, so a weak one that is collected late takes
power away. There is no other way to lose any (`scanner_falls_for_scanner`).
-/

namespace ScriptedRobot

open Gain

/-- The range that an item gives to the scanner; zero if it gives none. -/
def Item.range (i : Item) : Int := i.capabilities.scannerRange.getD 0

namespace Session

/-! ## The power of the scanner -/

/-- The power of the scanner after an item: a scanner sets it, another item with a range may only raise it. -/
def tune (level : Int) (i : Item) : Int :=
  if i.name = Item.scannerName then max 1 i.range
  else if i.range = 0 then level
  else max level i.range

theorem scannerLevel_equip (r : Robot) (i : Item) :
    (equip r i).upgrades.scannerLevel = tune r.upgrades.scannerLevel i := by
  rw [equip_eq]
  unfold scannerLevelAfter tune Item.range
  simp only
  split
  · split <;> simp [*]
  · split <;> simp [*]

theorem scannerLevel_foldl_equip (items : List Item) (r : Robot) :
    (items.foldl equip r).upgrades.scannerLevel = items.foldl tune r.upgrades.scannerLevel :=
  (List.foldl_hom (fun r : Robot => r.upgrades.scannerLevel) fun r i => (scannerLevel_equip r i).symm).symm

theorem le_tune {i : Item} (other : i.name ≠ Item.scannerName) (level : Int) : level ≤ tune level i := by
  rw [tune, if_neg other]
  split
  · exact le_rfl
  · exact le_max_left _ _

/-- Items leave the scanner weaker only if there is a scanner among them that has no more power than is left. -/
theorem exists_scanner_of_foldl_tune_lt {items : List Item} {level : Int} (h : items.foldl tune level < level) :
    ∃ i ∈ items, i.name = Item.scannerName ∧ i.range ≤ items.foldl tune level := by
  induction items generalizing level with
  | nil => exact absurd h (lt_irrefl level)
  | cons i items ih =>
    rw [List.foldl_cons] at h ⊢
    by_cases later : items.foldl tune (tune level i) < tune level i
    · obtain ⟨j, hj, hscanner⟩ := ih later
      exact ⟨j, List.mem_cons_of_mem i hj, hscanner⟩
    · have hfirst : tune level i < level := (not_lt.1 later).trans_lt h
      have named : i.name = Item.scannerName := by
        by_contra other
        exact absurd (le_tune other level) (not_le.2 hfirst)
      refine ⟨i, List.mem_cons_self, named, ?_⟩
      calc i.range ≤ tune level i := by rw [tune, if_pos named]; exact le_max_right _ _
        _ ≤ items.foldl tune (tune level i) := not_lt.1 later

/-! ## What a command equips the robot with -/

theorem alike_foldl_equip {r r' : Robot} (h : r.Alike r') (items : List Item) :
    (items.foldl equip r).Alike (items.foldl equip r') :=
  List.foldl_rel h fun i _ _ _ alike => alike_equip alike i

theorem mem_inventory_foldl_equip {r : Robot} {name : String} (h : name ∈ r.inventory) (items : List Item) :
    name ∈ (items.foldl equip r).inventory :=
  List.foldlRecOn (motive := fun r : Robot => name ∈ r.inventory) items equip h fun _ carried _ _ =>
    mem_inventory_equip (.inl carried)

variable {σ : Type} {levels : List LevelSpec} {s t : Session σ}

theorem robot_collectAll (ps : List Position) (s : Session σ) :
    (collectAll ps s).1.play.robot = (collectAll ps s).2.foldl equip s.play.robot := by
  induction ps generalizing s with
  | nil => rfl
  | cons p ps ih =>
    rcases hc : s.play.items.collectAt p with ⟨_ | i, items⟩
    · simp only [collectAll, hc]
      exact ih s
    · obtain ⟨timeSlow, he⟩ := (s.onPlay fun play => { play with items := items }).applyItem_spec i
      simp only [collectAll, hc, List.foldl_cons]
      rw [ih, he]
      rfl

/-- The items among the gains are what the robot has been equipped with, in that order, and there is nothing else. -/
def Outfits (gs : List Gain) (s t : Session σ) : Prop :=
  t.play.robot.Alike ((Gain.items gs).foldl equip s.play.robot)

theorem Outfits.of_alike {gs : List Gain} (h : t.play.robot.Alike s.play.robot) (none : Gain.items gs = []) :
    Outfits gs s t := by
  rw [Outfits, none]
  exact h

variable [WordSource σ]

/-- Without an item the robot stays equipped as it is. -/
theorem StepsOf.alike {ds : List Deed} (h : StepsOf ds s t) (plain : .collect ∉ ds := by decide) :
    t.play.robot.Alike s.play.robot := by
  induction h with
  | refl => exact .refl _
  | tail _ hstep ih =>
    obtain ⟨d, hd, hstep⟩ := hstep
    rcases hstep.robot with ⟨rfl, -⟩ | ⟨-, alike⟩
    · exact absurd hd plain
    · exact alike.trans ih

theorem outfits_tracks : (Recorder.gains : Recorder σ Gain).Tracks Outfits where
  records := fun play _ => .of_alike (play ▸ .refl _) rfl
  trans := fun {as bs s t u} h k => by
    rw [Outfits, items_append, List.foldl_append]
    exact k.trans (alike_foldl_equip h _)
  step := fun hstep plain => by
    rcases hstep.robot with ⟨rfl, -⟩ | ⟨-, alike⟩
    · exact absurd (by decide) plain
    · exact .of_alike alike rfl
  grab := fun s => by
    have hrobot : s.grab.1.play.robot = (collectAll s.reach s).1.play.robot := by
      rw [s.grab_play.1]
      rfl
    simp only [Outfits, Recorder.gains, items_append, items_map_claimed, items_map_item, List.append_nil]
    rw [hrobot, robot_collectAll]
    exact .refl _
  scan := fun s _ => .of_alike (scanAll_steps _ s).alike (items_map_scanned _)
  turn := fun {s} clear => .of_alike ((endTurn_outcome s).steps clear).alike rfl
  check := fun s => .of_alike (checkCompletion_finish s).alike s.gains_check.1

/-- A command that meets no enemy equips the robot with the items that it collects, one after the other. -/
theorem Reachable.outfits (h : Reachable levels s) {c : Command} (clear : (s.execute c).1.collided = false) :
    Outfits (Recorder.gains.visit ⟨s, c⟩) s (s.execute c).1 := by
  by_cases loads : ∃ i t, s.destination? c = some i ∧ s.apart.load i = (t, .ok ())
  · obtain ⟨i, t, goes, load⟩ := loads
    obtain ⟨r, he⟩ := execute_loads goes load
    obtain ⟨-, -, -, -, -, hbegin⟩ := load_ok load
    have hrobot : t.play.robot = Robot.carrying t.spec.start (some s.play.robot) := by
      rw [← show s.apart.play.robot = s.play.robot from rfl, ← robot_of_load load, hbegin]
      rfl
    have hchecked : t.checkCompletion.play.robot.Alike s.play.robot :=
      (checkCompletion_finish t).alike.trans (hrobot ▸ .carrying _ _)
    rw [gains_of_load goes load, he]
    exact .of_alike hchecked t.gains_check.1
  · have stays : (Visit.mk s c).Stays := ⟨clear, fun i t goes load => loads ⟨i, t, goes, load⟩⟩
    exact outfits_tracks.execute h.wellFormed stays fun o fires => .of_alike (fires_steps fires).alike rfl

/-- Power is lost only for a scanner. A command that meets no enemy leaves the robot with all that it carried, and the
power of its scanner is what the collected items make of it, one after the other. So if there is less than before, one
of these is a scanner whose range is no more than what is left, and it lay about on the level. -/
theorem scanner_falls_for_scanner (h : Reachable levels s) {c : Command}
    (clear : (s.execute c).1.collided = false) :
    (∀ name ∈ s.play.robot.inventory, name ∈ (s.execute c).1.play.robot.inventory) ∧
      (s.execute c).1.play.robot.upgrades.scannerLevel =
        (Gain.items (Recorder.gains.visit ⟨s, c⟩)).foldl tune s.play.robot.upgrades.scannerLevel ∧
      ((s.execute c).1.play.robot.upgrades.scannerLevel < s.play.robot.upgrades.scannerLevel →
        ∃ i ∈ s.play.items.active, i.taken ∈ Gain.items (Recorder.gains.visit ⟨s, c⟩) ∧
          i.name = Item.scannerName ∧ i.range ≤ (s.execute c).1.play.robot.upgrades.scannerLevel) := by
  obtain ⟨hupgrades, hinventory⟩ := h.outfits clear
  have hlevel : (s.execute c).1.play.robot.upgrades.scannerLevel =
      (Gain.items (Recorder.gains.visit ⟨s, c⟩)).foldl tune s.play.robot.upgrades.scannerLevel := by
    rw [hupgrades, scannerLevel_foldl_equip]
  refine ⟨fun name carried => ?_, hlevel, fun less => ?_⟩
  · rw [hinventory]
    exact mem_inventory_foldl_equip carried _
  · rw [hlevel] at less ⊢
    obtain ⟨i, hi, named, weak⟩ := exists_scanner_of_foldl_tune_lt less
    obtain ⟨-, htaken⟩ := h.earns clear
    obtain ⟨j, hj, rfl⟩ := htaken i hi
    exact ⟨j, hj, hi, named, weak⟩

/-! ## A weak scanner behind a lens -/

/-- The session in the observatory when the robot has taken the lens and has come within reach of the scanner. -/
def atScanner : Session Random.Twister := ((inObservatory.execute .grab).1.execute (.move .right)).1

theorem atScanner_reachable : Reachable [observatory] atScanner :=
  ((Reachable.start rfl inObservatory_starts).command .grab).command (.move .right)

/-- Whoever takes the scanner as well loses the power that the lens gave. -/
theorem scanner_falls_for_scanner_observatory :
    (atScanner.execute .grab).1.collided = false ∧
      (atScanner.execute .grab).1.play.robot.upgrades.scannerLevel < atScanner.play.robot.upgrades.scannerLevel ∧
      ∃ i ∈ atScanner.play.items.active, i.name = Item.scannerName ∧ i.range ≤ 1 := by
  have clear : (atScanner.execute .grab).1.collided = false := by decide +kernel
  have after : (atScanner.execute .grab).1.play.robot.upgrades.scannerLevel = 1 := by decide +kernel
  have before : atScanner.play.robot.upgrades.scannerLevel = 3 := by decide +kernel
  have less : (atScanner.execute .grab).1.play.robot.upgrades.scannerLevel <
      atScanner.play.robot.upgrades.scannerLevel := by
    rw [after, before]
    decide
  obtain ⟨-, -, hloss⟩ := scanner_falls_for_scanner atScanner_reachable clear
  obtain ⟨i, hi, -, named, weak⟩ := hloss less
  exact ⟨clear, less, i, hi, named, after ▸ weak⟩

/-- Collecting an item can weaken the scanner. -/
theorem scanner_weakened : Reachable [observatory] atScanner ∧ (atScanner.execute .grab).1.collided = false ∧
    atScanner.play.robot.upgrades.scannerLevel = 3 ∧
    (atScanner.execute .grab).1.play.robot.upgrades.scannerLevel = 1 :=
  ⟨atScanner_reachable, by decide +kernel, by decide +kernel, by decide +kernel⟩

end Session

end ScriptedRobot
