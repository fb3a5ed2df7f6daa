import ScriptedRobot.Proofs.Board.Tiles
import ScriptedRobot.Proofs.Session.Entering
import ScriptedRobot.Proofs.Session.Obstacle
import ScriptedRobot.Text.Numeral

/-!
# The numbers in an answer

`NumberOf` says where a number in the wording of an answer can come from: it was given with the command, it is a
number of turns, or it counts tiles or levels (`execute_numbers`). So an answer can be written whenever the
numbers of the command, of tiles and of levels can (`execute_writable`).
-/

namespace ScriptedRobot

open Text

/-- The numbers that a command comes with. -/
def Command.numbers : Command → List Int
  | laserTile p => [p.x, p.y]
  | gotoLevel n => [n]
  | _ => []

/-- The numbers in the wording of an answer. -/
def Reply.numbers : Reply → List Int
  | searchBlocked n | searchIncomplete n | searchComplete n => [n]
  | laserEmpty p => [p.x, p.y]
  | laserEnemy p => [p.x, p.y, stunTurns]
  | laserObstacle p => [p.x, p.y, removalTurns]
  | skipped n | jumped n => [n]
  | noSuchLevel n count => [n, count]
  | _ => []

/-- The numbers of tiles and of levels are short enough to be written. -/
structure Countable (levels : List LevelSpec) : Prop where
  tiles : ∀ spec ∈ levels, Numeral.isWritable (spec.width * spec.height) = true
  levels : Numeral.isWritable levels.length = true

namespace Board

/-- A well-formed board has no more known tiles than tiles. -/
theorem WellFormed.known_size_le {b : Board} (h : b.WellFormed) : (b.known.size : Int) ≤ b.width * b.height := by
  have hw := h.width_pos
  have hh := h.height_pos
  have hsub : ∀ p ∈ b.known, p ∈ (⟨allTiles b.width b.height, nodup_allTiles _ _⟩ : Distinct Position) :=
    fun p hp => mem_allTiles.2 (h.known_inside p hp)
  have hsize : b.known.size ≤ (allTiles b.width b.height).length := Distinct.size_le_of_subset hsub
  rw [length_allTiles] at hsize
  have harea : ((b.width.toNat * b.height.toNat : Nat) : Int) = b.width * b.height := by
    rw [Int.natCast_mul, Int.toNat_of_nonneg hw.le, Int.toNat_of_nonneg hh.le]
  omega

theorem WellFormed.coordinates_lt {b : Board} (h : b.WellFormed) {p : Position} (inside : b.inBounds p = true) :
    (0 ≤ p.x ∧ p.x < b.width * b.height) ∧ 0 ≤ p.y ∧ p.y < b.width * b.height := by
  have hw := h.width_pos
  have hh := h.height_pos
  rw [inBounds, inside_iff] at inside
  have hcolumns : b.width * 1 ≤ b.width * b.height := Int.mul_le_mul_of_nonneg_left hh hw.le
  have hrows : 1 * b.height ≤ b.width * b.height := Int.mul_le_mul_of_nonneg_right hw hh.le
  omega

end Board

namespace Session

variable {σ : Type}

/-- Where a number in the answer to a command comes from. -/
inductive NumberOf (s : Session σ) (c : Command) (n : Int) : Prop where
  /-- It was given with the command. -/
  | given (h : n ∈ c.numbers)
  /-- It says for how many turns a laser works. -/
  | turns (h : n = stunTurns ∨ n = removalTurns)
  /-- It is a coordinate of a tile, or a number of tiles. -/
  | tiles (low : 0 ≤ n) (high : n ≤ s.spec.width * s.spec.height)
  /-- It is the number of a level, or the number of levels. -/
  | levels (low : -(s.campaign.levels.length : Int) ≤ n) (high : n ≤ s.campaign.levels.length)

theorem NumberOf.writable {levels : List LevelSpec} {s : Session σ} (hs : Grounded levels s)
    (countable : Countable levels) {c : Command} (hc : ∀ n ∈ c.numbers, Numeral.isWritable n = true) {n : Int}
    (h : s.NumberOf c n) : Numeral.isWritable n = true := by
  cases h with
  | given h => exact hc n h
  | turns h =>
    rcases h with rfl | rfl
    · decide +kernel
    · decide +kernel
  | tiles low high =>
    have hmem : s.spec ∈ s.campaign.levels := Campaign.mem_of_level? hs.entry.level
    rw [hs.levels] at hmem
    have hwritable := countable.tiles s.spec hmem
    simp only [Numeral.isWritable, decide_eq_true_eq] at hwritable ⊢
    omega
  | levels low high =>
    have hwritable := countable.levels
    rw [hs.levels] at low high
    simp only [Numeral.isWritable, decide_eq_true_eq] at hwritable ⊢
    omega

/-! ## Lasers -/

section Lasers

variable {s : Session σ} {c : Command}

/-- The coordinates of a tile of the board are among the numbers that an answer may hold. -/
theorem WellFormed.numberOf_coordinates (hs : s.WellFormed) {p : Position}
    (inside : s.play.board.inBounds p = true) : s.NumberOf c p.x ∧ s.NumberOf c p.y := by
  obtain ⟨⟨hx, hx'⟩, hy, hy'⟩ := hs.board.coordinates_lt inside
  rw [hs.width, hs.height] at hx' hy'
  exact ⟨.tiles hx hx'.le, .tiles hy hy'.le⟩

theorem laserHit_numbers (hs : s.WellFormed) {p : Position} (inside : s.play.board.inBounds p = true)
    {outcome : Session σ × Reply} (hits : s.laserHit p = some outcome) :
    ∀ n ∈ outcome.2.numbers, s.NumberOf c n := by
  obtain ⟨hx, hy⟩ := hs.numberOf_coordinates (c := c) inside
  have hturns : ∀ {turns n : Int}, turns = stunTurns ∨ turns = removalTurns → n ∈ [p.x, p.y, turns] →
      s.NumberOf c n := by
    intro turns n hturns hn
    simp only [List.mem_cons, List.not_mem_nil, or_false] at hn
    rcases hn with rfl | rfl | rfl
    · exact hx
    · exact hy
    · exact .turns hturns
  unfold laserHit at hits
  split at hits
  · cases hits
    exact fun n hn => hturns (.inl rfl) hn
  · split at hits
    · cases hits
      exact fun n hn => hturns (.inr rfl) hn
    · cases hits

theorem laserFrom_numbers (hs : s.WellFormed) (step : Position) (count : Nat) (p : Position) :
    ∀ n ∈ (s.laserFrom step count p).2.numbers, s.NumberOf c n := by
  induction count generalizing p with
  | zero => exact fun n hn => absurd hn List.not_mem_nil
  | succ count ih =>
    simp only [laserFrom]
    split
    · exact fun n hn => absurd hn List.not_mem_nil
    · rename_i inside
      split
      · rename_i hits
        exact laserHit_numbers hs (by simpa using inside) hits
      · exact ih _

theorem fireTile_numbers (hs : s.WellFormed) (p : Position) :
    ∀ n ∈ (s.fireTile p).2.numbers, s.NumberOf c n := by
  unfold fireTile
  split
  · exact fun n hn => absurd hn List.not_mem_nil
  · rename_i inside
    have inside : s.play.board.inBounds p = true := by simpa using inside
    cases hits : s.laserHit p with
    | some outcome => exact laserHit_numbers hs inside hits
    | none =>
      obtain ⟨hx, hy⟩ := hs.numberOf_coordinates (c := c) inside
      intro n hn
      simp only [Option.getD_none, Reply.numbers, List.mem_cons, List.not_mem_nil, or_false] at hn
      rcases hn with rfl | rfl
      · exact hx
      · exact hy

end Lasers

/-! ## Doors, scans and moves -/

theorem turnDoor_numbers (s : Session σ) (wide : Bool) : (s.turnDoor wide).2.numbers = [] := by
  unfold turnDoor
  split
  · rfl
  · split <;> rfl

variable [WordSource σ] {s : Session σ} {c : Command}

theorem scan_numbers (s : Session σ) (step : Position) : (s.scan step).2.numbers = [] := by
  unfold scan
  simp only
  split <;> rfl

theorem move_numbers (s : Session σ) (step : Position) : (s.move step).2.numbers = [] := by
  rw [move_reply]
  split
  · rfl
  · split <;> rfl

/-- A search discovers no more tiles than there are on the board. -/
theorem searchAll_numbers (hs : s.WellFormed) : ∀ n ∈ s.searchAll.2.numbers, s.NumberOf c n := by
  have hpaused : (s.onPlay fun p => { p with enemiesPaused := true }).WellFormed := hs.step (.pause s true)
  have hreply : s.searchAll.2 = (s.onPlay fun p => { p with enemiesPaused := true }).searchFrom.2 := rfl
  obtain ⟨⟨phase, t⟩, hrun, hend⟩ := searchFrom_ends (s.onPlay fun p => { p with enemiesPaused := true })
  have hsteps : Steps (s.onPlay fun p => { p with enemiesPaused := true }) t := hrun.steps.steps
  have ht : t.WellFormed := hpaused.steps hsteps
  have hspec : t.spec = s.spec := congrArg LevelEntry.spec hsteps.progress.entry
  have hsize : ∀ before : Nat, ∀ n ∈ [((t.play.board.known.size - before : Nat) : Int)], s.NumberOf c n := by
    intro before n hn
    have hknown := ht.board.known_size_le
    rw [ht.width, ht.height, hspec] at hknown
    rw [List.mem_singleton.1 hn]
    exact .tiles (Int.natCast_nonneg _) (by omega)
  rw [hreply]
  generalize (s.onPlay fun p => { p with enemiesPaused := true }).searchFrom = outcome at hend ⊢
  cases hend with
  | stuck _ =>
    cases phase with
    | homing h left => exact fun n hn => absurd hn List.not_mem_nil
    | sweeping toRight left => exact hsize _
  | met _ _ => exact fun n hn => absurd hn List.not_mem_nil
  | complete _ => exact hsize _
  | incomplete _ => exact hsize _

/-! ## Commands -/

theorem perform_numbers {t : Session σ} {r : Reply} (hs : s.WellFormed) (here : s.campaign.HasLevel s.level)
    (h : s.perform c = (t, .ok r)) : ∀ n ∈ r.numbers, s.NumberOf c n := by
  have none_of_nil : ∀ {r : Reply}, r.numbers = [] → ∀ n ∈ r.numbers, s.NumberOf c n := by
    intro r hnil n hn
    rw [hnil] at hn
    exact absurd hn List.not_mem_nil
  obtain ⟨hlow, hhigh⟩ := here
  cases c with
  | move heading =>
    simp only [perform] at h
    split at h
    · cases h
      exact none_of_nil rfl
    · cases h
      exact none_of_nil (move_numbers s _)
  | scan heading =>
    cases h
    exact none_of_nil (scan_numbers s _)
  | searchAll =>
    cases h
    exact searchAll_numbers hs
  | laserDirection heading =>
    cases h
    exact laserFrom_numbers hs _ _ _
  | laserTile p =>
    cases h
    exact fireTile_numbers hs p
  | openDoor wide =>
    cases h
    exact none_of_nil (turnDoor_numbers s wide)
  | skipLevel =>
    simp only [perform] at h
    split at h
    · cases h
      exact none_of_nil rfl
    · rename_i further
      rw [enterLevel_ok h]
      intro n hn
      rw [List.mem_singleton.1 hn]
      exact .levels (by omega) (by omega)
  | gotoLevel number =>
    have hgiven : s.NumberOf (.gotoLevel number) number := .given (List.mem_singleton.2 rfl)
    simp only [perform] at h
    split at h
    · rw [enterLevel_ok h]
      intro n hn
      rw [List.mem_singleton.1 hn]
      exact hgiven
    · cases h
      intro n hn
      simp only [Reply.numbers, List.mem_cons, List.not_mem_nil, or_false] at hn
      rcases hn with rfl | rfl
      · exact hgiven
      · exact .levels (by omega) (le_refl _)
  | grab | setAutoGrab | println | eprintln | panic =>
    cases h
    exact none_of_nil rfl

/-- Every number in an answer comes from the command, from the tiles or from the levels. -/
theorem execute_numbers {t : Session σ} {r : Reply} (hs : s.WellFormed) (here : s.campaign.HasLevel s.level)
    (h : s.execute c = (t, .ok r)) : ∀ n ∈ r.numbers, s.NumberOf c n := by
  have happart : s.apart.WellFormed := (invariant_wellFormed []).play (show s.apart.play = s.play from rfl) hs
  rcases execute_ok h with ⟨-, -, rfl⟩ | ⟨-, rfl⟩ | ⟨-, -, u, hp⟩
  · exact fun n hn => absurd hn List.not_mem_nil
  · exact fun n hn => absurd hn List.not_mem_nil
  · intro n hn
    -- before a command is carried out, only the flag about a meeting is put down
    cases perform_numbers happart here hp n hn with
    | given h => exact .given h
    | turns h => exact .turns h
    | tiles low high => exact .tiles low high
    | levels low high => exact .levels low high

end Session

end ScriptedRobot
