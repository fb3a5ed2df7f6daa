import ScriptedRobot.Proofs.Session.Reachable

/-!
# What the robot is equipped with

On a level only the items that it collects change what the robot carries and how far its tools reach, and it takes both
along to the next level. `Outfit` names what follows: a property of these two that a fresh robot has and that no item
takes away holds of the robot of every reachable session, and of the robot that its level was entered with. The scanner
is the case in point. It comes into the inventory by its name or by the power of another item, and its power is set at
another place, but the one is never there without the other (`scan_iff_power`).
-/

namespace ScriptedRobot

/-- The robots carry the same items, and their tools reach equally far. -/
structure Robot.Alike (r r' : Robot) : Prop where
  upgrades : r.upgrades = r'.upgrades
  inventory : r.inventory = r'.inventory

namespace Robot.Alike

variable {r r' r'' : Robot}

theorem refl (r : Robot) : r.Alike r := ⟨rfl, rfl⟩

theorem trans (h : r.Alike r') (k : r'.Alike r'') : r.Alike r'' :=
  ⟨h.upgrades.trans k.upgrades, h.inventory.trans k.inventory⟩

/-- A robot takes along what it carries and how far its tools reach. -/
theorem carrying (start : Position) (r : Robot) : (Robot.carrying start (some r)).Alike r := ⟨rfl, rfl⟩

end Robot.Alike

namespace Session

variable {r r' : Robot}

/-! ## What an item does to a robot -/

theorem scannerLevelAfter_congr (h : r.Alike r') (i : Item) : scannerLevelAfter r i = scannerLevelAfter r' i := by
  rw [scannerLevelAfter, scannerLevelAfter, h.upgrades]

/-- What comes of an item depends on what the robot carries and how far its tools reach, and on nothing else. -/
theorem alike_equip (h : r.Alike r') (i : Item) : (equip r i).Alike (equip r' i) := by
  rw [equip_eq, equip_eq, scannerLevelAfter_congr h, h.upgrades, h.inventory]
  exact ⟨rfl, rfl⟩

/-- A scanner has power. Any other item leaves the scanner no weaker, if it does anything to it. -/
theorem scannerLevelAfter_cases (r : Robot) (i : Item) :
    (i.name = Item.scannerName ∧ ∃ level, scannerLevelAfter r i = some level ∧ 1 ≤ level) ∨
      (i.name ≠ Item.scannerName ∧ ∃ level, scannerLevelAfter r i = some level ∧ r.upgrades.scannerLevel ≤ level) ∨
      (i.name ≠ Item.scannerName ∧ scannerLevelAfter r i = none) := by
  unfold scannerLevelAfter
  simp only
  split
  · rename_i named
    exact .inl ⟨named, _, rfl, le_max_left _ _⟩
  · rename_i other
    split
    · exact .inr (.inl ⟨other, _, rfl, le_max_left _ _⟩)
    · exact .inr (.inr ⟨other, rfl⟩)

/-- The scanner is carried exactly if it has power, and its power is never negative. -/
structure ScannerInOrder (r : Robot) : Prop where
  nonneg : 0 ≤ r.upgrades.scannerLevel
  carried : Item.scannerName ∈ r.inventory ↔ 1 ≤ r.upgrades.scannerLevel

theorem ScannerInOrder.alike (h : r.Alike r') (k : ScannerInOrder r') : ScannerInOrder r := by
  constructor
  · rw [h.upgrades]
    exact k.nonneg
  · rw [h.upgrades, h.inventory]
    exact k.carried

/-- An item keeps the scanner in order, whatever range it has. -/
theorem ScannerInOrder.equip (h : ScannerInOrder r) (i : Item) : ScannerInOrder (equip r i) := by
  obtain ⟨nonneg, carried⟩ := h
  rcases scannerLevelAfter_cases r i with
    ⟨named, level, hlevel, positive⟩ | ⟨other, level, hlevel, least⟩ | ⟨other, hlevel⟩
  · have hcarried : Item.scannerName ∈ (Session.equip r i).inventory := mem_inventory_equip (.inr named.symm)
    constructor
    · simp only [equip_eq, hlevel, Option.getD_some]
      omega
    · simp only [hcarried, true_iff]
      simp only [equip_eq, hlevel, Option.getD_some]
      exact positive
  · have hother : Item.scannerName ≠ i.name := other.symm
    constructor
    · simp only [equip_eq, hlevel, Option.getD_some]
      omega
    · simp only [equip_eq, hlevel, Option.getD_some, Option.any_some, decide_eq_true_eq]
      split
      · simp only [Distinct.mem_insert, or_true, true_iff]
        omega
      · simp only [Distinct.mem_insert, carried, hother, or_false]
        omega
  · have hother : Item.scannerName ≠ i.name := other.symm
    constructor
    · simp only [equip_eq, hlevel, Option.getD_none]
      exact nonneg
    · simp only [equip_eq, hlevel, Option.getD_none, Option.any_none, Bool.false_eq_true, if_false,
        Distinct.mem_insert, hother, or_false]
      exact carried

variable {σ : Type} [WordSource σ] {levels : List LevelSpec} {s t : Session σ}

/-! ## What the robot has in every session -/

/-- A step equips the robot with an item, or leaves it as it is equipped. -/
theorem Step.robot {d : Deed} (h : Step s d t) :
    (d = .collect ∧ ∃ i, t.play.robot = equip s.play.robot i) ∨ (d ≠ .collect ∧ t.play.robot.Alike s.play.robot) := by
  cases h with
  | collect found =>
    rename_i p i items
    obtain ⟨timeSlow, he⟩ := (s.onPlay fun play => { play with items := items }).applyItem_spec i
    rw [he]
    exact .inl ⟨rfl, i, rfl⟩
  | _ => exact .inr ⟨nofun, rfl, rfl⟩

/-- A property of what a robot carries and how far its tools reach, which a fresh robot has and items never take
away. -/
structure Outfit (P : Robot → Prop) : Prop where
  /-- It looks at nothing else. -/
  alike : ∀ {r r' : Robot}, r.Alike r' → P r' → P r
  /-- A fresh robot has it. -/
  fresh : ∀ start : Position, P { position := start }
  /-- An item keeps it. -/
  equip : ∀ {r : Robot} (i : Item), P r → P (equip r i)

/-- The robot has the property, and had it when its level was entered. -/
def Equipped (P : Robot → Prop) (s : Session σ) : Prop := P s.play.robot ∧ P s.play.entry.robot

namespace Outfit

variable {P : Robot → Prop}

theorem step (h : Outfit P) {d : Deed} (hstep : Step s d t) (hs : s.Equipped P) : t.Equipped P := by
  refine ⟨?_, by rw [hstep.progress.entry]; exact hs.2⟩
  rcases hstep.robot with ⟨-, i, he⟩ | ⟨-, alike⟩
  · rw [he]
    exact h.equip i hs.1
  · exact h.alike alike hs.1

theorem steps (h : Outfit P) (k : Steps s t) (hs : s.Equipped P) : t.Equipped P := by
  induction k with
  | refl => exact hs
  | tail _ hstep ih =>
    obtain ⟨d, hstep⟩ := hstep
    exact h.step hstep ih

/-- A level begins with the robot that it is entered with. -/
theorem begun {g : σ} (play : s.play = (s.play.entry.begin g).1) (entered : P s.play.entry.robot) : s.Equipped P := by
  have hrobot : s.play.robot = s.play.entry.robot := by rw [play]; rfl
  exact ⟨hrobot ▸ entered, entered⟩

/-- A command that meets no enemy only adds to what the robot is equipped with, even where it goes to another level;
and after an encounter the robot is again the one that entered the level. -/
theorem execute (h : Outfit P) (hs : s.Equipped P) (c : Command) : (s.execute c).1.Equipped P := by
  have heffect := execute_effect s c
  generalize s.execute c = outcome at heffect ⊢
  cases heffect with
  | refused _ => exact hs
  | failed _ load =>
    obtain ⟨-, -, hplay⟩ := load_error load
    rw [Equipped, hplay]
    exact hs
  | @entered i t r _ load =>
    obtain ⟨-, -, -, -, -, hbegin⟩ := load_ok load
    have entered : P t.play.entry.robot := by
      rw [robot_of_load load]
      exact h.alike (.carrying _ _) hs.1
    have hdone := h.steps (checkCompletion_steps t) (begun hbegin entered)
    exact hdone
  | @settled t r _ _ steps =>
    have happart : s.apart.Equipped P := hs
    have hdone := h.steps (steps.steps.trans (checkCompletion_steps t)) happart
    exact hdone
  | @met t u _ _ steps met =>
    have hentry : u.play.entry = s.play.entry := (steps.steps.progress.trans met.progress).entry
    have entered : P u.collide.play.entry.robot := by
      show P u.play.entry.robot
      rw [hentry]
      exact hs.2
    have hagain : u.collide.Equipped P := begun (g := u.rng) rfl entered
    exact hagain

/-- Every robot has such a property that a session leads to. -/
theorem reachable (h : Outfit P) (hs : Reachable levels s) : s.Equipped P := by
  induction hs with
  | start _ starts =>
    obtain ⟨-, -, -, -, hbegin⟩ := start_ok starts
    refine begun hbegin ?_
    rw [robot_of_start starts]
    exact h.fresh _
  | command _ c ih => exact h.execute ih c
  | @reread s _ load ih =>
    have hrobot : (s.withLoader load).play.entry.robot = s.play.entry.robot := by
      simp only [withLoader, onPlay, Campaign.refresh]
      split <;> rfl
    refine ⟨ih.1, ?_⟩
    rw [hrobot]
    exact ih.2
  | records _ _ play _ ih =>
    rw [Equipped, play]
    exact ih

end Outfit

/-! ## The scanner -/

theorem outfit_scannerInOrder : Outfit ScannerInOrder where
  alike := .alike
  fresh := fun _ => ⟨le_rfl, by simp⟩
  equip := fun i h => h.equip i

omit [WordSource σ] in
theorem scan_mem_availableFunctions : .scan ∈ s.availableFunctions ↔ Item.scannerName ∈ s.play.robot.inventory := by
  simp [availableFunctions, Robot.availableFunctions, Robot.hasItem]

/-- Scanning is unlocked exactly if the scanner has power: the power is never negative, the scanner is carried if there
is some and not otherwise, and with that the calls that the level allows include a scan or do not. A level that is
loaded finds the robot with the same power and the same items, and one that is entered again with both scanner and
power or neither. -/
theorem scan_iff_power (h : Reachable levels s) :
    0 ≤ s.play.robot.upgrades.scannerLevel ∧
      (Item.scannerName ∈ s.play.robot.inventory ↔ 1 ≤ s.play.robot.upgrades.scannerLevel) ∧
      (.scan ∈ s.availableFunctions ↔ 1 ≤ s.play.robot.upgrades.scannerLevel) ∧
      (∀ i t, s.load i = (t, .ok ()) →
        t.play.robot.upgrades.scannerLevel = s.play.robot.upgrades.scannerLevel ∧
          t.play.robot.inventory = s.play.robot.inventory) ∧
      0 ≤ s.reload.play.robot.upgrades.scannerLevel ∧
      (Item.scannerName ∈ s.reload.play.robot.inventory ↔ 1 ≤ s.reload.play.robot.upgrades.scannerLevel) := by
  obtain ⟨⟨nonneg, carried⟩, entered⟩ := outfit_scannerInOrder.reachable h
  have hreload : s.reload.play.robot = s.play.entry.robot := rfl
  refine ⟨nonneg, carried, scan_mem_availableFunctions.trans carried, fun i t load => ?_, ?_⟩
  · obtain ⟨-, -, -, -, -, hbegin⟩ := load_ok load
    have hrobot : t.play.robot = t.play.entry.robot := by rw [hbegin]; rfl
    rw [hrobot, robot_of_load load]
    exact ⟨rfl, rfl⟩
  · rw [hreload]
    exact ⟨entered.nonneg, entered.carried⟩

/-! ### An observatory -/

/-- A room with a lens on its start, and a scanner behind it. -/
def observatory : LevelSpec where
  name := "Observatory"
  width := 3
  height := 1
  start := ⟨0, 0⟩
  items := [{ name := "lens", position := some ⟨0, 0⟩, overrides := { scannerRange := some (some 3) } },
    { name := "scanner", position := some ⟨2, 0⟩ }]
  width_pos := courtyard.width_pos
  height_pos := Int.one_pos
  placed_inside := by decide

/-- A session that starts in the observatory. -/
def inObservatory : Session Random.Twister :=
  ((start ⟨[observatory], Loader.ofTexts [], none⟩ ⟨Vector.replicate _ 0, 0⟩ 0).1.toOption).get (by decide)

theorem inObservatory_starts : (start ⟨[observatory], Loader.ofTexts [], none⟩
    (⟨Vector.replicate _ 0, 0⟩ : Random.Twister) 0).1 = .ok inObservatory := rfl

/-- The lens gives power, so the robot finds that it can scan. -/
theorem scan_iff_power_observatory : .scan ∉ inObservatory.availableFunctions ∧
    (inObservatory.execute .grab).1.play.robot.upgrades.scannerLevel = 3 ∧
    .scan ∈ (inObservatory.execute .grab).1.availableFunctions := by
  have starts : Reachable [observatory] inObservatory := .start rfl inObservatory_starts
  have bare : inObservatory.play.robot.upgrades.scannerLevel = 0 := by decide +kernel
  have level : (inObservatory.execute .grab).1.play.robot.upgrades.scannerLevel = 3 := by decide +kernel
  obtain ⟨-, -, before, -⟩ := scan_iff_power starts
  obtain ⟨-, -, after, -⟩ := scan_iff_power (starts.command .grab)
  refine ⟨fun scans => ?_, level, after.2 ?_⟩
  · have power := before.1 scans
    omega
  · omega

end Session

end ScriptedRobot
