import Mathlib.Data.List.Forall2
import ScriptedRobot.Proofs.Board.Ticking
import ScriptedRobot.Proofs.Session.Step

/-!
# Progress within a level

`Progress` says what small steps never undo: the level stays the one that was entered, its board
develops, items stay collected, what the robot carries it keeps, and every count and every output only
grows.
-/

namespace ScriptedRobot

/-- What may become of an item: it may be collected, and all else about it stays. -/
def Item.Becomes (i j : Item) : Prop := j = i ∨ j = { i with collected := true }

theorem Item.Becomes.trans {i j k : Item} (h : i.Becomes j) (h' : j.Becomes k) : i.Becomes k := by
  rcases h with rfl | rfl
  · exact h'
  · rcases h' with rfl | rfl <;> exact Or.inr rfl

theorem Item.Becomes.position {i j : Item} (h : i.Becomes j) : j.position = i.position := by
  rcases h with rfl | rfl <;> rfl

theorem Item.Becomes.collected {i j : Item} (h : i.Becomes j) (hi : i.collected = true) :
    j.collected = true := by
  rcases h with rfl | rfl
  · exact hi
  · rfl

theorem Item.becomes_trans {is js ks : List Item} (h : List.Forall₂ Item.Becomes is js)
    (k : List.Forall₂ Item.Becomes js ks) : List.Forall₂ Item.Becomes is ks := by
  induction h generalizing ks with
  | nil => exact k
  | cons hi _ ih =>
    cases k with
    | cons hj hrest => exact .cons (hi.trans hj) (ih hrest)

namespace ItemStore

/-- What may become of items: some of them may be collected. -/
def Develops (s t : ItemStore) : Prop := List.Forall₂ Item.Becomes s.items t.items

theorem Develops.refl (s : ItemStore) : s.Develops s := List.forall₂_same.2 fun _ _ => Or.inl rfl

theorem Develops.trans {s t u : ItemStore} (h : s.Develops t) (k : t.Develops u) : s.Develops u :=
  Item.becomes_trans h k

/-- Every item afterwards is what one of the items before has become. -/
theorem Develops.mem {s t : ItemStore} (h : s.Develops t) {j : Item} (hj : j ∈ t.items) :
    ∃ i ∈ s.items, i.Becomes j := by
  obtain ⟨n, hn, rfl⟩ := List.mem_iff_getElem.1 hj
  have hlength : s.items.length = t.items.length := List.Forall₂.length_eq h
  exact ⟨s.items[n], List.getElem_mem _, List.Forall₂.get h (by omega) hn⟩

theorem Develops.eq_nil_iff {s t : ItemStore} (h : s.Develops t) : t.items = [] ↔ s.items = [] := by
  have hlength : s.items.length = t.items.length := List.Forall₂.length_eq h
  rw [← List.length_eq_zero_iff, ← hlength, List.length_eq_zero_iff]

theorem collectFirst_becomes (p : Position) (items : List Item) :
    List.Forall₂ Item.Becomes items (collectFirst p items) := by
  induction items with
  | nil => exact .nil
  | cons i items ih =>
    unfold collectFirst
    split
    · exact .cons (Or.inr rfl) (Develops.refl ⟨items⟩)
    · exact .cons (Or.inl rfl) ih

theorem collectAt_develops {s t : ItemStore} {p : Position} {i : Item}
    (h : s.collectAt p = (some i, t)) : s.Develops t := by
  unfold collectAt at h
  split at h
  · cases h
  · cases h
    exact collectFirst_becomes p s.items

end ItemStore

namespace Session

variable {σ : Type}

/-- What small steps never undo. -/
structure Progress (s t : Session σ) : Prop where
  campaign : t.campaign = s.campaign
  entry : t.play.entry = s.play.entry
  rule : t.play.rule = s.play.rule
  board : s.play.board.Develops t.play.board
  items : s.play.items.Develops t.play.items
  carried : ∀ name ∈ s.play.robot.inventory, name ∈ t.play.robot.inventory
  turns : s.play.turns ≤ t.play.turns
  printed : ∀ text ∈ s.play.printed, text ∈ t.play.printed
  errors : ∀ text ∈ s.play.errors, text ∈ t.play.errors
  panicked : s.play.panicked = true → t.play.panicked = true
  finished : s.play.finished = true → t.play.finished = true

namespace Progress

theorem refl (s : Session σ) : Progress s s :=
  ⟨rfl, rfl, rfl, .refl _, .refl _, fun _ h => h, Nat.le_refl _, fun _ h => h, fun _ h => h, id, id⟩

theorem trans {s t u : Session σ} (h : Progress s t) (k : Progress t u) : Progress s u where
  campaign := k.campaign.trans h.campaign
  entry := k.entry.trans h.entry
  rule := k.rule.trans h.rule
  board := h.board.trans k.board
  items := h.items.trans k.items
  carried := fun name hn => k.carried name (h.carried name hn)
  turns := Nat.le_trans h.turns k.turns
  printed := fun text ht => k.printed text (h.printed text ht)
  errors := fun text ht => k.errors text (h.errors text ht)
  panicked := fun hp => k.panicked (h.panicked hp)
  finished := fun hf => k.finished (h.finished hf)

/-- A small step that changes the board alone makes progress if the board develops. -/
theorem onBoard {s : Session σ} {f : Board → Board} (h : s.play.board.Develops (f s.play.board)) :
    Progress s (s.onBoard f) :=
  { refl s with board := h }

end Progress

/-! ## What an item does to the robot -/

/-- An item extends the grabber, may set the level of the scanner, and is carried under its own name; if it gives the
scanner any power then a scanner is carried as well. -/
theorem equip_eq (r : Robot) (i : Item) : equip r i =
    { r with
      upgrades := { r.upgrades with
        grabberLevel := r.upgrades.grabberLevel + i.capabilities.grabberBoost.getD 0
        scannerLevel := (scannerLevelAfter r i).getD r.upgrades.scannerLevel }
      inventory :=
        if (scannerLevelAfter r i).any (0 < ·) then (r.inventory.insert i.name).insert Item.scannerName
        else r.inventory.insert i.name } := by
  have hsame : scannerLevelAfter (r.addItem i.name) i = scannerLevelAfter r i := rfl
  unfold equip
  simp only [hsame, Robot.upgradeGrabber]
  cases scannerLevelAfter r i with
  | none => rfl
  | some level =>
    simp only [Robot.setScannerLevel, Option.any_some, decide_eq_true_eq]
    split <;> rfl

theorem mem_inventory_equip {r : Robot} {i : Item} {name : String} (h : name ∈ r.inventory ∨ name = i.name) :
    name ∈ (equip r i).inventory := by
  have hadd : name ∈ r.inventory.insert i.name := Distinct.mem_insert.2 h
  rw [equip_eq]
  simp only
  split
  · exact Distinct.mem_insert.2 (Or.inl hadd)
  · exact hadd

theorem position_equip (r : Robot) (i : Item) : (equip r i).position = r.position := by rw [equip_eq]

/-- Collecting an item changes the robot, the credits and the time alone. -/
theorem applyItem_spec (s : Session σ) (i : Item) :
    ∃ timeSlow, s.applyItem i = { s with
      play := { s.play with robot := equip s.play.robot i, timeSlow := timeSlow }
      credits := s.credits + i.capabilities.creditsValue.getD 0 } := by
  simp only [applyItem]
  split
  · exact ⟨s.play.timeSlow, rfl⟩
  · split
    · exact ⟨s.play.timeSlow, rfl⟩
    · exact ⟨_, rfl⟩

variable [WordSource σ]

theorem Step.progress {d : Deed} {s t : Session σ} (h : Step s d t) : Progress s t := by
  cases h with
  | spend => exact { Progress.refl s with turns := Nat.le_succ _ }
  | look => exact .onBoard (Board.revealAll_develops _ _)
  | walk h inside way clear => exact { Progress.refl s with board := Board.visit_revealAround_develops inside }
  | collect found =>
    rename_i p i items
    obtain ⟨timeSlow, he⟩ := (s.onPlay fun play => { play with items := items }).applyItem_spec i
    rw [he]
    exact { Progress.refl s with
      items := ItemStore.collectAt_develops found
      carried := fun name hn => mem_inventory_equip (.inl hn) }
  | claim => exact { Progress.refl s with board := Board.revealAll_develops _ _ }
  | scan way => exact { Progress.refl s with board := Board.revealAll_develops _ [_] }
  | door p wide => exact .onBoard (Board.turnDoor_develops _ p wide)
  | stun armed inside found => exact { Progress.refl s with }
  | remove armed inside blocked => exact { Progress.refl s with }
  | enemies deep awake clear => exact { Progress.refl s with board := Board.tickAll_develops _ _ _ _ }
  | tick => exact { Progress.refl s with }
  | pause paused => exact { Progress.refl s with }
  | autoGrab on => exact { Progress.refl s with }
  | print text => exact { Progress.refl s with printed := fun x hx => List.mem_append_left _ hx }
  | complain text => exact { Progress.refl s with errors := fun x hx => List.mem_append_left _ hx }
  | giveUp => exact { Progress.refl s with panicked := fun _ => rfl }
  | finish unfinished complete => exact { Progress.refl s with finished := fun _ => rfl }
  | tell names => exact { Progress.refl s with }
  | answer kind text => exact { Progress.refl s with }

theorem Steps.progress {s t : Session σ} (h : Steps s t) : Progress s t := by
  induction h with
  | refl => exact .refl s
  | tail _ hstep ih =>
    obtain ⟨d, hstep⟩ := hstep
    exact ih.trans hstep.progress

/-- An encounter, too, leaves the level the one that was entered. -/
theorem Encounter.progress {s t : Session σ} (h : Encounter s t) : Progress s t := by
  cases h with
  | walk h inside way meets => exact { Progress.refl s with board := Board.visit_revealAround_develops inside }
  | enemies deep awake meets => exact { Progress.refl s with board := Board.tickAll_develops _ _ _ _ }

end Session

end ScriptedRobot
