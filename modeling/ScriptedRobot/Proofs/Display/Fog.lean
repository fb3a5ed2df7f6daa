import Mathlib.Data.List.Basic
import ScriptedRobot.Display.TurnView
import ScriptedRobot.Proofs.Board.Tiles

/-!
# What the fog hides

The lines of a board have the shape of the board. Two snapshots that differ only in what they hold on unknown tiles
are drawn as the same lines, in the same styles (`StateSnapshot.fog_hides`).
-/

namespace ScriptedRobot

namespace StateSnapshot

/-- The lines of a board as they are drawn. -/
def boardLines (s : StateSnapshot) : List (List StyledSymbol) := s.boardRows.map fun row => row.map Tile.styled

theorem boardSide_eq (p : TurnPayload) : p.boardSide = .group
    [.ofText p.heading (some "bold"), .panel "Grid" (.group (p.state.boardLines.map .symbols)),
     .panel "Result" (.ofText (orElse p.result "-") none)] := by
  rw [TurnPayload.boardSide, boardLines, List.map_map]
  rfl

/-- Boards of one size on which the robot, the enemies and the known tiles are the same, and which hold the same on
every known tile. -/
structure SeenAlike (s t : StateSnapshot) : Prop where
  width : s.width = t.width
  height : s.height = t.height
  robot : s.robot = t.robot
  enemies : s.enemies = t.enemies
  known : ∀ p, p ∈ s.known ↔ p ∈ t.known
  blockers : ∀ p ∈ s.known, p ∈ s.blockers ↔ p ∈ t.blockers
  doors : ∀ p ∈ s.known, p ∈ s.doors ↔ p ∈ t.doors
  openDoors : ∀ p ∈ s.known, p ∈ s.openDoors ↔ p ∈ t.openDoors
  removed : ∀ p ∈ s.known, p ∈ s.removed ↔ p ∈ t.removed
  items : ∀ p ∈ s.known, (∃ i ∈ s.items, i.position = p) ↔ ∃ i ∈ t.items, i.position = p

variable {s t : StateSnapshot} {p : Position}

theorem contains_congr {ps qs : List Position} (h : p ∈ ps ↔ p ∈ qs) : ps.contains p = qs.contains p := by
  rw [Bool.eq_iff_iff, List.contains_iff_mem, List.contains_iff_mem]
  exact h

theorem SeenAlike.knownTile (h : s.SeenAlike t) (hp : p ∈ s.known) : s.knownTile p = t.knownTile p := by
  have hitems : s.items.any (·.position == p) = t.items.any (·.position == p) := by
    rw [Bool.eq_iff_iff]
    simp only [List.any_eq_true, beq_iff_eq]
    exact h.items p hp
  unfold StateSnapshot.knownTile
  rw [contains_congr (h.removed p hp), contains_congr (h.blockers p hp), contains_congr (h.doors p hp),
    contains_congr (h.openDoors p hp), hitems]

theorem SeenAlike.tile (h : s.SeenAlike t) (p : Position) : s.tile p = t.tile p := by
  have henemy : s.enemyOn? p = t.enemyOn? p := by rw [enemyOn?, enemyOn?, h.enemies]
  unfold StateSnapshot.tile
  rw [h.robot, henemy, contains_congr (h.known p)]
  split
  · rfl
  · split
    · rfl
    · -- what a tile holds is only looked at if the tile is known
      split
      · rename_i hknown
        exact h.knownTile ((h.known p).2 (List.contains_iff_mem.1 hknown))
      · rfl

theorem SeenAlike.boardLines (h : s.SeenAlike t) : s.boardLines = t.boardLines := by
  have hrows : s.boardRows = t.boardRows := by
    unfold boardRows
    rw [h.width, h.height]
    refine List.map_congr_left fun y _ => List.map_congr_left fun x _ => ?_
    exact h.tile ⟨x, y⟩
  rw [StateSnapshot.boardLines, hrows, StateSnapshot.boardLines]

theorem length_boardLines (h : 0 ≤ s.height) : (s.boardLines.length : Int) = s.height := by
  rw [StateSnapshot.boardLines, boardRows, List.length_map, List.length_map, length_integers]
  omega

theorem length_of_mem_boardLines (h : 0 ≤ s.width) {line : List StyledSymbol} (mem : line ∈ s.boardLines) :
    (line.length : Int) = s.width := by
  obtain ⟨row, hrow, rfl⟩ := List.mem_map.1 mem
  obtain ⟨y, -, rfl⟩ := List.mem_map.1 hrow
  rw [List.length_map, List.length_map, length_integers]
  omega

/-- A board is drawn as one line for each of its rows, with one symbol for each of its columns. What the snapshot holds
on unknown tiles has no effect on the lines. -/
theorem fog_hides (s : StateSnapshot) :
    (0 ≤ s.height → (s.boardLines.length : Int) = s.height) ∧
      (0 ≤ s.width → ∀ line ∈ s.boardLines, (line.length : Int) = s.width) ∧
      ∀ t : StateSnapshot, s.SeenAlike t → s.boardLines = t.boardLines := by
  refine ⟨length_boardLines, ?_, ?_⟩
  · intro h line mem
    exact length_of_mem_boardLines h mem
  · intro t h
    exact h.boardLines

/-! ### A board that is mostly fog -/

/-- A board with an enemy in the fog and a door, a blocker and an item in the open. -/
def hollow : StateSnapshot where
  levelIndex := 3
  levelName := "Hollow"
  width := 4
  height := 3
  robot := ⟨0, 0⟩
  known := [⟨0, 0⟩, ⟨1, 0⟩, ⟨2, 0⟩, ⟨0, 1⟩, ⟨1, 1⟩]
  blockers := [⟨1, 1⟩]
  doors := [⟨2, 0⟩]
  enemies := [{ index := 0, position := ⟨3, 0⟩, pattern := "guard" }]
  items := [⟨"gem", ⟨0, 1⟩⟩]

/-- The same board with more of everything in the fog. -/
def crowdedHollow : StateSnapshot where
  levelIndex := 3
  levelName := "Hollow"
  width := 4
  height := 3
  robot := ⟨0, 0⟩
  known := [⟨1, 1⟩, ⟨0, 1⟩, ⟨2, 0⟩, ⟨1, 0⟩, ⟨0, 0⟩]
  blockers := [⟨3, 2⟩, ⟨1, 1⟩, ⟨2, 1⟩]
  doors := [⟨2, 0⟩, ⟨3, 1⟩]
  openDoors := [⟨3, 1⟩]
  removed := [⟨2, 1⟩]
  enemies := [{ index := 0, position := ⟨3, 0⟩, pattern := "guard" }]
  items := [⟨"key", ⟨2, 2⟩⟩, ⟨"coin", ⟨0, 1⟩⟩]

theorem hollow_seenAlike : hollow.SeenAlike crowdedHollow where
  width := rfl
  height := rfl
  robot := rfl
  enemies := rfl
  known p := (List.reverse_perm hollow.known).mem_iff.symm
  blockers := by decide
  doors := by decide
  openDoors := by decide
  removed := by decide
  items := by decide

theorem fog_hides_hollow : 0 ≤ hollow.height ∧ 0 ≤ hollow.width ∧ hollow.SeenAlike crowdedHollow ∧
    (hollow.boardLines.length : Int) = hollow.height ∧
    (∀ line ∈ hollow.boardLines, (line.length : Int) = hollow.width) ∧
    hollow.boardLines = crowdedHollow.boardLines := by
  have hheight : 0 ≤ hollow.height := by decide
  have hwidth : 0 ≤ hollow.width := by decide
  obtain ⟨hlines, hsymbols, halike⟩ := fog_hides hollow
  exact ⟨hheight, hwidth, hollow_seenAlike, hlines hheight, hsymbols hwidth, halike _ hollow_seenAlike⟩

end StateSnapshot

end ScriptedRobot
