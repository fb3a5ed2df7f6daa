import ScriptedRobot.Proofs.Session.Reply
import ScriptedRobot.Proofs.Session.Search

/-!
# Commands that meet an obstacle

`Obstructed` says of a command, in terms of the board, that it meets an obstacle. The answer to a command
tells of an obstacle exactly then, and it repeats a text exactly if that is the text which the command
speaks (`perform_answer`). Between them the two decide which commands halt a batch (`execute_haltsBatch`).
-/

namespace ScriptedRobot

/-- The text that a command speaks. -/
def Command.spoken? : Command → Option String
  | println text => some text
  | eprintln text => some text
  | panic message => some (Session.panicMessage message)
  | _ => none

namespace Session

variable {σ : Type}

/-! ## Answers that have nothing to do with obstacles -/

theorem turnDoor_plain (s : Session σ) (wide : Bool) : (s.turnDoor wide).2.Plain := by
  unfold turnDoor
  split
  · exact ⟨rfl, rfl⟩
  · split <;> exact ⟨rfl, rfl⟩

theorem laserHit_plain {s t : Session σ} {p : Position} {r : Reply} (h : s.laserHit p = some (t, r)) :
    r.Plain := by
  unfold laserHit at h
  split at h
  · cases h
    exact ⟨rfl, rfl⟩
  · split at h
    · cases h
      exact ⟨rfl, rfl⟩
    · cases h

theorem laserFrom_plain (s : Session σ) (step : Position) (count : Nat) (p : Position) :
    (s.laserFrom step count p).2.Plain := by
  induction count generalizing p with
  | zero => exact ⟨rfl, rfl⟩
  | succ count ih =>
    simp only [laserFrom]
    split
    · exact ⟨rfl, rfl⟩
    · split
      · rename_i hit
        exact laserHit_plain hit
      · exact ih _

theorem fireTile_plain (s : Session σ) (p : Position) : (s.fireTile p).2.Plain := by
  unfold fireTile
  split
  · exact ⟨rfl, rfl⟩
  · cases hit : s.laserHit p with
    | none => exact ⟨rfl, rfl⟩
    | some outcome => exact laserHit_plain hit

/-! ## Scans -/

/-- Making a tile known opens no way and bars none. -/
theorem isBlocked_reveal {s t : Session σ} {p : Position} (board : t.play.board = s.play.board.reveal p)
    (removed : t.play.removed = s.play.removed) (q : Position) : t.isBlocked q = s.isBlocked q := by
  simp only [isBlocked, Board.isBlockedUnless, Board.isBlocked, board, removed, Board.reveal]
  split <;> rfl

/-- A scan gets through exactly if none of the tiles is barred. -/
theorem scanAll_through (ps : List Position) (s : Session σ) :
    (scanAll ps s).2.1 = false ↔ ∃ p ∈ ps, s.isBlocked p = true := by
  induction ps generalizing s with
  | nil => simp [scanAll]
  | cons p ps ih =>
    by_cases barred : s.isBlocked p = true
    · simp [scanAll, barred]
    · simp only [Bool.not_eq_true] at barred
      simp only [scanAll, barred, List.mem_cons, exists_eq_or_imp, Bool.false_eq_true, if_false, false_or]
      rw [ih]
      refine exists_congr fun q => and_congr_right fun _ => ?_
      have hsame := isBlocked_reveal (s := s) (p := p) (t := s.onPlay fun play =>
        { play with
          board := play.board.reveal p
          discovered := play.discovered + if s.play.board.isHidden p then 1 else 0 }) rfl rfl q
      rw [hsame]

variable [WordSource σ]

theorem scan_tellsOfObstacle (s : Session σ) (step : Position) : (s.scan step).2.tellsOfObstacle = true ↔
    ∃ p ∈ s.play.robot.scannerTiles step s.play.board.width s.play.board.height, s.isBlocked p = true := by
  rw [← scanAll_through]
  unfold scan
  simp only
  split
  · rename_i hs
    simp [hs, Reply.tellsOfObstacle]
  · rename_i hs
    simp [hs, Reply.tellsOfObstacle]

theorem scan_quoted (s : Session σ) (step : Position) : (s.scan step).2.quoted? = none := by
  unfold scan
  simp only
  split <;> rfl

/-! ## Moves and searches -/

/-- A move is barred at the edge of the board and by obstacles. Otherwise it is made, and an enemy met or
not. -/
theorem move_reply (s : Session σ) (step : Position) : (s.move step).2 =
    if s.play.board.inBounds (s.play.robot.position + step) = false ∨
        s.isBlocked (s.play.robot.position + step) = true then .blocked
    else if (s.move step).1.collided then .collision else .moved := by
  unfold move
  simp only
  split
  · rename_i outside
    simp only [Bool.not_eq_true'] at outside
    exact (if_pos (.inl outside)).symm
  · rename_i inside
    simp only [Bool.not_eq_true', Bool.not_eq_false] at inside
    split
    · rename_i barred
      exact (if_pos (.inr barred)).symm
    · rename_i way
      have hopen : ¬ (s.play.board.inBounds (s.play.robot.position + step) = false ∨
          s.isBlocked (s.play.robot.position + step) = true) := by
        rintro (outside | barred)
        · rw [show s.play.board.inBounds _ = true from inside] at outside
          cases outside
        · exact way barred
      rw [if_neg hopen]
      split <;> rfl

theorem move_tellsOfObstacle (s : Session σ) (step : Position) : (s.move step).2.tellsOfObstacle = true ↔
    s.play.board.inBounds (s.play.robot.position + step) = false ∨
      s.isBlocked (s.play.robot.position + step) = true := by
  rw [move_reply]
  split
  · rename_i barred
    exact iff_of_true rfl barred
  · rename_i hopen
    split <;> exact iff_of_false Bool.false_ne_true hopen

theorem move_quoted (s : Session σ) (step : Position) : (s.move step).2.quoted? = none := by
  rw [move_reply]
  split
  · rfl
  · split <;> rfl

/-- A search comes, some of its moves on, to where an obstacle on the board keeps it from going further. -/
def SearchObstructed (s : Session σ) : Prop :=
  ∃ phase t, SearchRun (.start, s.searching) (phase, t) ∧ Stuck phase t ∧ t.FacesObstacle

theorem searchAll_tellsOfObstacle {s : Session σ} (hs : s.WellFormed) :
    s.apart.searchAll.2.tellsOfObstacle = true ↔ s.SearchObstructed := by
  have hreply : s.apart.searchAll.2 = s.searching.searchFrom.2 := rfl
  have happart : s.apart.WellFormed := (invariant_wellFormed []).play (show s.apart.play = s.play from rfl) hs
  have hsearching : s.searching.WellFormed := happart.step (.pause s.apart true)
  rw [hreply]
  constructor
  · intro htells
    obtain ⟨⟨phase, t⟩, hrun, hend⟩ := searchFrom_ends s.searching
    have ht : t.WellFormed := hsearching.steps hrun.steps.steps
    generalize s.searching.searchFrom = outcome at hend htells
    cases hend with
    | stuck stuck => exact ⟨phase, t, hrun, stuck, stuck.facesObstacle ht⟩
    | met _ _ => cases htells
    | complete _ => cases htells
    | incomplete _ => cases htells
  · rintro ⟨phase, t, hrun, stuck, -⟩
    rw [searchFrom_of_stuck hrun stuck]
    cases phase <;> rfl

theorem searchAll_quoted (s : Session σ) : s.apart.searchAll.2.quoted? = none := by
  have hreply : s.apart.searchAll.2 = s.searching.searchFrom.2 := rfl
  rw [hreply]
  obtain ⟨c, -, hend⟩ := searchFrom_ends s.searching
  generalize s.searching.searchFrom = outcome at hend
  cases hend with
  | @stuck phase _ _ => cases phase <;> rfl
  | _ => rfl

/-! ## Commands -/

/-- The command meets an obstacle: a move goes off the board or to a barred tile, the view of a scan is
barred, or a search comes to an obstacle. -/
def Obstructed (s : Session σ) : Command → Prop
  | .move h => s.play.finished = false ∧
      (s.play.board.inBounds (s.play.robot.position + h.step) = false ∨
        s.isBlocked (s.play.robot.position + h.step) = true)
  | .scan h => CommandKind.scan ∈ s.availableFunctions ∧
      ∃ p ∈ s.play.robot.scannerTiles h.step s.play.board.width s.play.board.height, s.isBlocked p = true
  | .searchAll => s.SearchObstructed
  | _ => False

theorem enterLevel_ok {s t : Session σ} {i : Int} {reply r : Reply} (h : s.enterLevel i reply = (t, .ok r)) :
    r = reply := by
  unfold enterLevel at h
  split at h
  · cases h
    rfl
  · cases h

/-- An answer tells of an obstacle if the command met one, and repeats the text that the command speaks. -/
theorem perform_answer {s t : Session σ} {c : Command} {r : Reply} (hs : s.WellFormed)
    (allowed : c.kind ∈ s.availableFunctions) (h : s.apart.perform c = (t, .ok r)) :
    (r.tellsOfObstacle = true ↔ s.Obstructed c) ∧ r.quoted? = c.spoken? := by
  have plain : ∀ {r : Reply}, r.Plain → (r.tellsOfObstacle = true ↔ False) ∧ r.quoted? = none := by
    intro r hr
    exact ⟨by simp [hr.1], hr.2⟩
  cases c with
  | move heading =>
    simp only [perform] at h
    split at h
    · rename_i finished
      cases h
      have hfinished : s.play.finished = true := finished
      exact ⟨by simp [Reply.tellsOfObstacle, Obstructed, hfinished], rfl⟩
    · rename_i unfinished
      cases h
      simp only [Bool.not_eq_true] at unfinished
      refine ⟨(move_tellsOfObstacle s.apart heading.step).trans ?_, move_quoted _ _⟩
      exact ⟨fun hbarred => ⟨unfinished, hbarred⟩, And.right⟩
  | grab =>
    cases h
    exact plain ⟨rfl, rfl⟩
  | scan heading =>
    cases h
    refine ⟨(scan_tellsOfObstacle s.apart heading.step).trans ?_, scan_quoted _ _⟩
    exact ⟨fun hbarred => ⟨allowed, hbarred⟩, And.right⟩
  | searchAll =>
    cases h
    exact ⟨searchAll_tellsOfObstacle hs, searchAll_quoted _⟩
  | setAutoGrab on =>
    cases h
    exact plain ⟨rfl, rfl⟩
  | laserDirection heading =>
    cases h
    exact plain (laserFrom_plain _ _ _ _)
  | laserTile p =>
    cases h
    exact plain (fireTile_plain _ _)
  | openDoor wide =>
    cases h
    exact plain (turnDoor_plain _ _)
  | skipLevel =>
    simp only [perform] at h
    split at h
    · cases h
      exact plain ⟨rfl, rfl⟩
    · rw [enterLevel_ok h]
      exact plain ⟨rfl, rfl⟩
  | gotoLevel n =>
    simp only [perform] at h
    split at h
    · rw [enterLevel_ok h]
      exact plain ⟨rfl, rfl⟩
    · cases h
      exact plain ⟨rfl, rfl⟩
  | println text =>
    cases h
    exact ⟨by simp [Reply.tellsOfObstacle, Obstructed], rfl⟩
  | eprintln text =>
    cases h
    exact ⟨by simp [Reply.tellsOfObstacle, Obstructed], rfl⟩
  | panic message =>
    cases h
    exact ⟨by simp [Reply.tellsOfObstacle, Obstructed], rfl⟩

theorem not_obstructed_of_refused {s : Session σ} {c : Command} (h : c.kind ∉ s.availableFunctions) :
    ¬ s.Obstructed c ∧ c.spoken? = none := by
  cases c with
  | scan heading => exact ⟨fun hbarred => h hbarred.1, rfl⟩
  | laserDirection heading => exact ⟨id, rfl⟩
  | laserTile p => exact ⟨id, rfl⟩
  | _ => exact absurd (by simp [Command.kind, availableFunctions, Robot.availableFunctions]) h

/-- A command that is answered halts the batch exactly if no enemy is met and it meets an obstacle, or speaks
of one. -/
theorem execute_haltsBatch {s t : Session σ} {c : Command} {r : Reply} (hs : s.WellFormed)
    (h : s.execute c = (t, .ok r)) : r.haltsBatch = true ↔ t.collided = false ∧
      (s.Obstructed c ∨ ∃ text, c.spoken? = some text ∧ Reply.speaksOfObstacle text = true) := by
  rcases execute_ok h with ⟨refused, clear, rfl⟩ | ⟨meets, rfl⟩ | ⟨allowed, clear, u, hp⟩
  · obtain ⟨hobstructed, hspoken⟩ := not_obstructed_of_refused refused
    have hplain : Reply.notAvailable.haltsBatch = false := Reply.Plain.haltsBatch ⟨rfl, rfl⟩
    simp [hplain, hobstructed, hspoken]
  · have hplain : Reply.collision.haltsBatch = false := Reply.Plain.haltsBatch ⟨rfl, rfl⟩
    simp [hplain, meets]
  · obtain ⟨htells, hquoted⟩ := perform_answer hs allowed hp
    rw [Reply.haltsBatch_iff, htells, hquoted]
    exact ⟨fun hhalts => ⟨clear, hhalts⟩, And.right⟩

end Session

end ScriptedRobot
