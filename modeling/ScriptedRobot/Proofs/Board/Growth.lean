import ScriptedRobot.Board.Setup

/-!
# Well-formed boards, and how boards grow

`WellFormed` says that everything on a board has its place there and that the sets of tiles fit
together. `Develops` relates a board to what may become of it while a level is played: more tiles are
known and visited, doors open and close, enemies move, and all else stays. Every operation on a board
that commands use keeps the one and is an instance of the other.
-/

namespace ScriptedRobot

/-- What stays the same of an enemy, wherever it goes: its axis, its pattern and its kind. -/
def Enemy.identity (e : Enemy) : Axis × Option String × String := (e.axis, e.pattern, e.strategy.tag)

theorem inside_iff {width height : Int} {p : Position} :
    inside width height p = true ↔ (0 ≤ p.x ∧ p.x < width) ∧ 0 ≤ p.y ∧ p.y < height := by
  simp [inside, and_assoc]

namespace Board

theorem isOccupied_eq_false_iff {b : Board} {p : Position} :
    b.isOccupied p = false ↔ ∀ e ∈ b.enemies, e.position ≠ p := by
  rw [isOccupied, enemyAt?, List.findIdx?_isSome, List.any_eq_false]
  simp

/-- Everything on the board stands on it, and the sets of tiles fit together. -/
structure WellFormed (b : Board) : Prop where
  width_pos : 0 < b.width
  height_pos : 0 < b.height
  visited_known : ∀ p ∈ b.visited, p ∈ b.known
  known_inside : ∀ p ∈ b.known, b.inBounds p = true
  openDoors_doors : ∀ p ∈ b.openDoors, p ∈ b.doors
  blockers_inside : ∀ p ∈ b.blockers, b.inBounds p = true
  doors_inside : ∀ p ∈ b.doors, b.inBounds p = true
  enemies_inside : ∀ e ∈ b.enemies, b.inBounds e.position = true

/-- The second board is what may become of the first while a level is played. -/
structure Develops (b b' : Board) : Prop where
  width : b'.width = b.width
  height : b'.height = b.height
  known : ∀ p ∈ b.known, p ∈ b'.known
  visited : ∀ p ∈ b.visited, p ∈ b'.visited
  blockers : b'.blockers = b.blockers
  doors : b'.doors = b.doors
  enemies : b'.enemies.map Enemy.identity = b.enemies.map Enemy.identity
  income : b'.income = b.income

namespace Develops

theorem refl (b : Board) : Develops b b :=
  ⟨rfl, rfl, fun _ h => h, fun _ h => h, rfl, rfl, rfl, rfl⟩

theorem trans {a b c : Board} (h : Develops a b) (k : Develops b c) : Develops a c where
  width := k.width.trans h.width
  height := k.height.trans h.height
  known := fun p hp => k.known p (h.known p hp)
  visited := fun p hp => k.visited p (h.visited p hp)
  blockers := k.blockers.trans h.blockers
  doors := k.doors.trans h.doors
  enemies := k.enemies.trans h.enemies
  income := k.income.trans h.income

theorem inBounds {b b' : Board} (h : Develops b b') (p : Position) : b'.inBounds p = b.inBounds p := by
  simp only [Board.inBounds, h.width, h.height]

theorem length_enemies {b b' : Board} (h : Develops b b') : b'.enemies.length = b.enemies.length := by
  have hlength := congrArg List.length h.enemies
  rwa [List.length_map, List.length_map] at hlength

end Develops

/-! ## Tiles become known -/

/-- Revealing tiles changes the known tiles alone: those that lie on the board are added. -/
theorem revealAll_spec (b : Board) (ps : List Position) :
    ∃ known, b.revealAll ps = { b with known := known } ∧
      ∀ q, q ∈ known ↔ q ∈ b.known ∨ q ∈ ps ∧ b.inBounds q = true := by
  induction ps generalizing b with
  | nil => exact ⟨b.known, rfl, fun q => by simp⟩
  | cons p ps ih =>
    obtain ⟨known, he, hk⟩ := ih (b.reveal p)
    by_cases hp : b.isHidden p = true
    · have hr : b.reveal p = { b with known := b.known.insert p } := if_pos hp
      simp only [isHidden, Bool.and_eq_true, decide_eq_true_eq] at hp
      refine ⟨known, by rw [revealAll, List.foldl_cons, ← revealAll, he, hr], fun q => ?_⟩
      have hq : (b.reveal p).inBounds q = b.inBounds q := by rw [hr]; rfl
      rw [hk, hq, hr, Distinct.mem_insert, List.mem_cons]
      constructor
      · rintro ((h | rfl) | ⟨h, hb⟩)
        · exact Or.inl h
        · exact Or.inr ⟨Or.inl rfl, hp.1⟩
        · exact Or.inr ⟨Or.inr h, hb⟩
      · rintro (h | ⟨rfl | h, hb⟩)
        · exact Or.inl (Or.inl h)
        · exact Or.inl (Or.inr rfl)
        · exact Or.inr ⟨h, hb⟩
    · have hr : b.reveal p = b := if_neg hp
      simp only [isHidden, Bool.and_eq_true, decide_eq_true_eq, not_and, Decidable.not_not] at hp
      refine ⟨known, by rw [revealAll, List.foldl_cons, ← revealAll, he, hr], fun q => ?_⟩
      rw [hk, hr, List.mem_cons]
      constructor
      · rintro (h | ⟨h, hb⟩)
        · exact Or.inl h
        · exact Or.inr ⟨Or.inr h, hb⟩
      · rintro (h | ⟨rfl | h, hb⟩)
        · exact Or.inl h
        · exact Or.inl (hp hb)
        · exact Or.inr ⟨h, hb⟩

@[simp] theorem revealAll_enemies (b : Board) (ps : List Position) : (b.revealAll ps).enemies = b.enemies := by
  obtain ⟨known, he, -⟩ := b.revealAll_spec ps
  rw [he]

theorem revealAll_develops (b : Board) (ps : List Position) : Develops b (b.revealAll ps) := by
  obtain ⟨known, he, hk⟩ := b.revealAll_spec ps
  rw [he]
  exact { Develops.refl b with known := fun p hp => (hk p).2 (Or.inl hp) }

theorem WellFormed.revealAll {b : Board} (h : b.WellFormed) (ps : List Position) :
    (b.revealAll ps).WellFormed := by
  obtain ⟨known, he, hk⟩ := b.revealAll_spec ps
  rw [he]
  refine { h with visited_known := fun p hp => ?_, known_inside := fun p hp => ?_ }
  · exact (hk p).2 (Or.inl (h.visited_known p hp))
  · rcases (hk p).1 hp with hp | ⟨-, hp⟩
    · exact h.known_inside p hp
    · exact hp

/-! ## The robot stands on a tile -/

/-- Standing on a tile of the board changes the visited and the known tiles alone: the tile counts as
visited, and it and its neighbours as known. -/
theorem visit_revealAround_spec {b : Board} {p : Position} (hp : b.inBounds p = true) :
    ∃ known, (b.visit p).revealAround p = { b with visited := b.visited.insert p, known := known } ∧
      ∀ q, q ∈ known ↔ q ∈ b.known ∨ q ∈ surroundings p ∧ b.inBounds q = true := by
  have hv : b.visit p = { b with visited := b.visited.insert p } := if_pos hp
  obtain ⟨known, he, hk⟩ := (b.visit p).revealAll_spec (surroundings p)
  refine ⟨known, by rw [revealAround, he, hv], fun q => ?_⟩
  rw [hk, hv]
  rfl

theorem visit_revealAround_develops {b : Board} {p : Position} (hp : b.inBounds p = true) :
    Develops b ((b.visit p).revealAround p) := by
  obtain ⟨known, he, hk⟩ := visit_revealAround_spec hp
  rw [he]
  refine { Develops.refl b with known := fun q hq => (hk q).2 (Or.inl hq), visited := fun q hq => ?_ }
  exact Distinct.mem_insert.2 (Or.inl hq)

theorem mem_visited_visit_revealAround {b : Board} {p : Position} (hp : b.inBounds p = true) :
    p ∈ ((b.visit p).revealAround p).visited := by
  obtain ⟨known, he, -⟩ := visit_revealAround_spec hp
  rw [he]
  exact Distinct.mem_insert.2 (Or.inr rfl)

theorem WellFormed.visit_revealAround {b : Board} (h : b.WellFormed) {p : Position}
    (hp : b.inBounds p = true) : ((b.visit p).revealAround p).WellFormed := by
  obtain ⟨known, he, hk⟩ := visit_revealAround_spec hp
  rw [he]
  refine { h with visited_known := fun q hq => ?_, known_inside := fun q hq => ?_ }
  · rcases Distinct.mem_insert.1 hq with hq | rfl
    · exact (hk q).2 (Or.inl (h.visited_known q hq))
    · exact (hk q).2 (Or.inr ⟨by simp [surroundings], hp⟩)
  · rcases (hk q).1 hq with hq | ⟨-, hq⟩
    · exact h.known_inside q hq
    · exact hq

/-! ## Doors -/

/-- Turning a door changes the open doors alone. -/
theorem openDoor_spec (b : Board) (p : Position) :
    ∃ openDoors, b.openDoor p = { b with openDoors := openDoors } ∧
      ∀ q ∈ openDoors, q ∈ b.openDoors ∨ q ∈ b.doors := by
  by_cases hp : b.isDoor p = true
  · refine ⟨b.openDoors.insert p, if_pos hp, fun q hq => ?_⟩
    rcases Distinct.mem_insert.1 hq with hq | rfl
    · exact Or.inl hq
    · exact Or.inr (by simpa [isDoor] using hp)
  · exact ⟨b.openDoors, if_neg hp, fun q hq => Or.inl hq⟩

theorem closeDoor_spec (b : Board) (p : Position) :
    ∃ openDoors, b.closeDoor p = { b with openDoors := openDoors } ∧
      ∀ q ∈ openDoors, q ∈ b.openDoors ∨ q ∈ b.doors := by
  by_cases hp : b.isDoor p = true
  · exact ⟨b.openDoors.erase p, if_pos hp, fun q hq => Or.inl (Distinct.mem_erase.1 hq).1⟩
  · exact ⟨b.openDoors, if_neg hp, fun q hq => Or.inl hq⟩

/-- What turning a door in either sense makes of a board. -/
theorem turnDoor_spec (b : Board) (p : Position) (wide : Bool) :
    ∃ openDoors, (if wide then b.openDoor p else b.closeDoor p) = { b with openDoors := openDoors } ∧
      ∀ q ∈ openDoors, q ∈ b.openDoors ∨ q ∈ b.doors := by
  cases wide with
  | true => exact b.openDoor_spec p
  | false => exact b.closeDoor_spec p

@[simp] theorem turnDoor_enemies (b : Board) (p : Position) (wide : Bool) :
    (if wide then b.openDoor p else b.closeDoor p).enemies = b.enemies := by
  obtain ⟨openDoors, he, -⟩ := b.turnDoor_spec p wide
  rw [he]

theorem turnDoor_develops (b : Board) (p : Position) (wide : Bool) :
    Develops b (if wide then b.openDoor p else b.closeDoor p) := by
  obtain ⟨openDoors, he, -⟩ := b.turnDoor_spec p wide
  rw [he]
  exact { Develops.refl b with }

theorem WellFormed.turnDoor {b : Board} (h : b.WellFormed) (p : Position) (wide : Bool) :
    (if wide then b.openDoor p else b.closeDoor p).WellFormed := by
  obtain ⟨openDoors, he, ho⟩ := b.turnDoor_spec p wide
  rw [he]
  refine { h with openDoors_doors := fun q hq => ?_ }
  rcases ho q hq with hq | hq
  · exact h.openDoors_doors q hq
  · exact hq

end Board

end ScriptedRobot
