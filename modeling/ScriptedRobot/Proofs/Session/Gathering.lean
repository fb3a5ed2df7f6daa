import ScriptedRobot.Proofs.Session.Completion
import ScriptedRobot.Proofs.Session.Course

/-!
# What the robot carries, and what it has gathered on a level

`Gathering` says where the names come from that the robot carries: it came to the level with them, or has
collected an item of that name there, or the scanner came along with an item that extends it. A level whose
flag asks for items looks at how many names are carried, wherever they come from (`finished_gathered`).
-/

namespace ScriptedRobot

/-- Does a scanner come along with the item, which goes by another name itself? -/
def Item.bringsScanner (i : Item) : Bool :=
  i.name != Item.scannerName && i.capabilities.scannerRange.getD 0 != 0

/-- The names that a robot may come to carry with the item. -/
def Item.Gives (i : Item) (name : String) : Prop :=
  name = i.name ∨ name = Item.scannerName ∧ i.bringsScanner = true

theorem Item.liesAt_iff {i : Item} {p : Position} : i.liesAt p = true ↔ i.position = p ∧ i.collected = false := by
  simp [liesAt]

namespace ItemStore

/-- The items that have been collected. -/
def gathered (s : ItemStore) : List Item := s.items.filter (·.collected)

theorem collectFirst_append {p : Position} {before after : List Item} {i : Item}
    (others : ∀ j ∈ before, j.liesAt p = false) (lies : i.liesAt p = true) :
    collectFirst p (before ++ i :: after) = before ++ { i with collected := true } :: after := by
  induction before with
  | nil => simp [collectFirst, lies]
  | cons j before ih =>
    obtain ⟨hj, hbefore⟩ := List.forall_mem_cons.1 others
    simp [collectFirst, hj, ih hbefore]

/-- What is collected on a tile is the first item that lies there. -/
theorem collectAt_split {s t : ItemStore} {p : Position} {i : Item} (h : s.collectAt p = (some i, t)) :
    ∃ before j after, s.items = before ++ j :: after ∧ t.items = before ++ i :: after ∧
      i = { j with collected := true } ∧ j.liesAt p = true ∧ ∀ k ∈ before, k.liesAt p = false := by
  unfold collectAt at h
  split at h
  · cases h
  · rename_i j hj
    cases h
    obtain ⟨lies, before, after, hitems, others⟩ := List.find?_eq_some_iff_append.1 hj
    have hothers : ∀ k ∈ before, k.liesAt p = false := fun k hk => by simpa using others k hk
    refine ⟨before, j, after, hitems, ?_, rfl, lies, hothers⟩
    rw [hitems]
    exact collectFirst_append hothers lies

/-- The item that is collected has been gathered then, besides those before. -/
theorem gathered_of_collectAt {s t : ItemStore} {p : Position} {i : Item} (h : s.collectAt p = (some i, t)) :
    t.gathered.Perm (i :: s.gathered) := by
  obtain ⟨before, j, after, hs, ht, rfl, lies, -⟩ := collectAt_split h
  have huncollected : j.collected = false := (Item.liesAt_iff.1 lies).2
  simp only [gathered, hs, ht, List.filter_append, List.filter_cons, huncollected]
  exact List.perm_middle

end ItemStore

namespace Session

variable {σ : Type}

theorem gives_scanner {r : Robot} {i : Item} {level : Int} (h : scannerLevelAfter r i = some level) :
    i.Gives Item.scannerName := by
  unfold scannerLevelAfter at h
  simp only at h
  split at h
  · rename_i hname
    exact .inl hname.symm
  · rename_i hname
    split at h
    · rename_i hrange
      exact .inr ⟨rfl, by simp [Item.bringsScanner, hname, hrange]⟩
    · cases h

/-- What the robot carries after collecting an item it carried before, or the item gave it. -/
theorem gives_of_mem_equip {r : Robot} {i : Item} {name : String} (h : name ∈ (equip r i).inventory) :
    name ∈ r.inventory ∨ i.Gives name := by
  have hadd : name ∈ r.inventory.insert i.name → name ∈ r.inventory ∨ i.Gives name := by
    intro hname
    exact (Distinct.mem_insert.1 hname).imp_right .inl
  rw [equip_eq] at h
  simp only at h
  split at h
  · rename_i power
    obtain ⟨level, hlevel, -⟩ := (Option.any_eq_true _ _).1 power
    rcases Distinct.mem_insert.1 h with hold | rfl
    · exact hadd hold
    · exact .inr (gives_scanner hlevel)
  · exact hadd h

/-- The items gathered on the level since it was last loaded. -/
def gathered (s : Session σ) : List Item := s.play.items.gathered

/-- What the robot carries it came with, or has gathered on the level; and it has lost none of that. -/
structure Gathering (s : Session σ) : Prop where
  /-- It still carries what it came with. -/
  brought : ∀ name ∈ s.play.entry.robot.inventory, name ∈ s.play.robot.inventory
  /-- It carries what it has gathered. -/
  kept : ∀ i ∈ s.gathered, i.name ∈ s.play.robot.inventory
  /-- It carries nothing else but what comes along with that. -/
  only : ∀ name ∈ s.play.robot.inventory,
    name ∈ s.play.entry.robot.inventory ∨ ∃ i ∈ s.gathered, i.Gives name

/-- There are no more names than the robot came with and has gathered items, but for the scanner. -/
theorem Gathering.size_le {s : Session σ} (h : s.Gathering) : s.play.robot.inventory.size ≤
    s.play.entry.robot.inventory.size + s.gathered.length + (s.gathered.any Item.bringsScanner).toNat := by
  have hsub : ∀ name ∈ s.play.robot.inventory.toList, name ∈ s.play.entry.robot.inventory.toList ++
      s.gathered.map (·.name) ++ List.replicate (s.gathered.any Item.bringsScanner).toNat Item.scannerName := by
    intro name hname
    rw [List.mem_append, List.mem_append]
    rcases h.only name hname with hbrought | ⟨i, hi, rfl | ⟨rfl, hbrings⟩⟩
    · exact .inl (.inl hbrought)
    · exact .inl (.inr (List.mem_map_of_mem hi))
    · have hany : s.gathered.any Item.bringsScanner = true := List.any_eq_true.2 ⟨i, hi, hbrings⟩
      exact .inr (by simp [hany])
  -- the names are carried once each, so any list that has them all is as long
  have hlength := (List.subperm_of_subset s.play.robot.inventory.nodup hsub).length_le
  simpa [Distinct.size, Nat.add_assoc] using hlength

variable [WordSource σ]

theorem Begun.gathered_eq_nil {levels : List LevelSpec} {s : Session σ} (hs : Grounded levels s) (h : s.Begun) :
    s.gathered = [] := by
  obtain ⟨g, hb⟩ := h
  have hitems : s.play.items.items = s.play.entry.items := congrArg (fun p => p.items.items) hb
  rw [gathered, ItemStore.gathered, hitems, List.filter_eq_nil_iff]
  intro i hi
  rw [(hs.entry.items i hi).2]
  exact Bool.false_ne_true

theorem Begun.gathering {levels : List LevelSpec} {s : Session σ} (hs : Grounded levels s) (h : s.Begun) :
    s.Gathering := by
  have hnone : s.gathered = [] := h.gathered_eq_nil hs
  obtain ⟨g, hb⟩ := h
  have hrobot : s.play.robot = s.play.entry.robot := congrArg Play.robot hb
  refine ⟨?_, ?_, ?_⟩
  · rw [hrobot]
    exact fun name hname => hname
  · rw [hnone]
    exact fun i hi => (List.not_mem_nil hi).elim
  · rw [hrobot]
    exact fun name hname => .inl hname

theorem Step.gathering {d : Deed} {s t : Session σ} (hstep : Step s d t) (h : s.Gathering) : t.Gathering := by
  cases hstep with
  | collect found =>
    rename_i p i items
    obtain ⟨timeSlow, he⟩ := (s.onPlay fun play => { play with items := items }).applyItem_spec i
    rw [he]
    have hgathered : ∀ j, j ∈ items.gathered ↔ j ∈ s.gathered ∨ j = i := by
      intro j
      rw [(ItemStore.gathered_of_collectAt found).mem_iff, List.mem_cons, or_comm]
      rfl
    refine ⟨?_, ?_, ?_⟩
    · exact fun name hname => mem_inventory_equip (.inl (h.brought name hname))
    · intro j hj
      rcases (hgathered j).1 hj with hold | rfl
      · exact mem_inventory_equip (.inl (h.kept j hold))
      · exact mem_inventory_equip (.inr rfl)
    · intro name hname
      rcases gives_of_mem_equip hname with hold | hgives
      · rcases h.only name hold with hbrought | ⟨j, hj, hgives⟩
        · exact .inl hbrought
        · exact .inr ⟨j, (hgathered j).2 (.inl hj), hgives⟩
      · exact .inr ⟨i, (hgathered i).2 (.inr rfl), hgives⟩
  -- no other step touches an item or what the robot carries
  | _ => exact ⟨h.brought, h.kept, h.only⟩

theorem invariant_gathering (levels : List LevelSpec) :
    Invariant levels (Gathering : Session σ → Prop) where
  begins := fun hs hb => hb.gathering hs
  step := fun _ hstep h => hstep.gathering h
  reread := fun {s} load h => by
    have hrobot : (s.withLoader load).play.entry.robot = s.play.entry.robot := by
      simp only [withLoader, onPlay, Campaign.refresh]
      split <;> rfl
    refine ⟨?_, h.kept, ?_⟩
    · rw [hrobot]
      exact h.brought
    · rw [hrobot]
      exact h.only
  play := fun {s t} play h => by
    refine ⟨?_, ?_, ?_⟩
    · rw [play]
      exact h.brought
    · rw [gathered, play]
      exact h.kept
    · rw [gathered, play]
      exact h.only

/-- A level whose flag asks for items is only finished when that many names are carried. These the robot
came with, or it has gathered items of that name since the level was last loaded, or one of those brought
the scanner along. -/
theorem finished_gathered {levels : List LevelSpec} {s : Session σ} {flag : String} {count : Option Nat}
    (h : Reachable levels s) (asks : s.spec.texts.completionFlag = some flag)
    (rule : CompletionRule.ofFlag flag = .itemsCollected count) (finished : s.play.finished = true) :
    count.getD 1 ≤ s.play.robot.inventory.size ∧ s.Gathering ∧
      count.getD 1 ≤ s.play.entry.robot.inventory.size + s.gathered.length +
        (s.gathered.any Item.bringsScanner).toNat := by
  have hcomplete : s.Complete := ((invariant_earned levels).reachable h).2.2 finished
  have hgathering : s.Gathering := ((invariant_gathering levels).reachable h).2
  have hsize : count.getD 1 ≤ s.play.robot.inventory.size := by
    rw [Complete, asks] at hcomplete
    simp only [rule] at hcomplete
    cases count with
    | none => exact Int.ofNat_lt.1 hcomplete
    | some n => exact Int.ofNat_le.1 hcomplete
  exact ⟨hsize, hgathering, Nat.le_trans hsize hgathering.size_le⟩

/-- A store with a coin in it. -/
def store : LevelSpec where
  name := "Store"
  width := 1
  height := 1
  start := ⟨0, 0⟩
  items := [{ name := "coin", position := some ⟨0, 0⟩ }]
  width_pos := Int.one_pos
  height_pos := Int.one_pos
  placed_inside := by decide

/-- An errand: one item is to be collected. -/
def errand : LevelSpec where
  name := "Errand"
  width := 3
  height := 1
  start := ⟨0, 0⟩
  items := [{ name := "parcel", position := some ⟨2, 0⟩ }]
  texts := { completionFlag := some "items_collected:1" }
  width_pos := Int.natCast_succ_pos 2
  height_pos := Int.one_pos
  placed_inside := by decide

/-- A workshop with a lens that extends the scanner: two items are to be collected. -/
def workshop : LevelSpec where
  name := "Workshop"
  width := 1
  height := 1
  start := ⟨0, 0⟩
  items := [{ name := "lens", position := some ⟨0, 0⟩, overrides := { scannerRange := some (some 1) } }]
  texts := { completionFlag := some "items_collected:2" }
  width_pos := Int.one_pos
  height_pos := Int.one_pos
  placed_inside := by decide

/-- The errand comes after the store. -/
def errands : Campaign where
  levels := [store, errand, workshop]
  loader := Loader.ofTexts []

/-- A session that starts in the store. -/
def inStore : Session Random.Twister :=
  ((start errands ⟨Vector.replicate _ 0, 0⟩ 0).1.toOption).get (by decide)

theorem inStore_starts :
    (start errands (⟨Vector.replicate _ 0, 0⟩ : Random.Twister) 0).1 = .ok inStore := rfl

/-- A session that starts in the workshop. -/
def inWorkshop : Session Random.Twister :=
  ((start errands ⟨Vector.replicate _ 0, 0⟩ 2).1.toOption).get (by decide)

theorem inWorkshop_starts :
    (start errands (⟨Vector.replicate _ 0, 0⟩ : Random.Twister) 2).1 = .ok inWorkshop := rfl

theorem finished_gathered_workshop :
    (inWorkshop.execute .grab).1.spec.texts.completionFlag = some "items_collected:2" ∧
      CompletionRule.ofFlag "items_collected:2" = .itemsCollected (some 2) ∧
      (inWorkshop.execute .grab).1.play.finished = true ∧
      2 ≤ (inWorkshop.execute .grab).1.play.robot.inventory.size ∧
      (inWorkshop.execute .grab).1.Gathering := by
  have asks : (inWorkshop.execute .grab).1.spec.texts.completionFlag = some "items_collected:2" := by
    decide +kernel
  have rule : CompletionRule.ofFlag "items_collected:2" = .itemsCollected (some 2) := by decide +kernel
  have finished : (inWorkshop.execute .grab).1.play.finished = true := by decide +kernel
  obtain ⟨hsize, hgathering, -⟩ :=
    finished_gathered (.command (.start rfl inWorkshop_starts) .grab) asks rule finished
  exact ⟨asks, rule, finished, hsize, hgathering⟩

/-- The coin from the store does the errand, on which nothing is collected; and in the workshop one item
counts for two. -/
theorem finished_ungathered :
    (Reachable errands.levels (after [.grab, .skipLevel] inStore) ∧
      (after [.grab, .skipLevel] inStore).spec.texts.completionFlag = some "items_collected:1" ∧
      (after [.grab, .skipLevel] inStore).play.finished = true ∧
      (after [.grab, .skipLevel] inStore).gathered.length = 0) ∧
    Reachable errands.levels (inWorkshop.execute .grab).1 ∧
      (inWorkshop.execute .grab).1.spec.texts.completionFlag = some "items_collected:2" ∧
      (inWorkshop.execute .grab).1.play.finished = true ∧
      (inWorkshop.execute .grab).1.gathered.length = 1 := by
  constructor
  · refine ⟨?_, by decide +kernel, by decide +kernel, by decide +kernel⟩
    exact .command (.command (.start rfl inStore_starts) .grab) .skipLevel
  · refine ⟨?_, by decide +kernel, by decide +kernel, by decide +kernel⟩
    exact .command (.start rfl inWorkshop_starts) .grab

end Session

end ScriptedRobot
