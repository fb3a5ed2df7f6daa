import ScriptedRobot.Proofs.Board.Growth

/-!
# Enemies move

A strategy only answers with a free tile, and stays of its kind. So a tick of the enemies develops the
board and keeps it well-formed: it changes nothing but the enemies, who stay on the board.
-/

namespace ScriptedRobot

namespace Strategy

variable {free : Position → Bool} {here : Position}

theorem bounceNext_free {axis : Position} {positive : Bool} {p : Position}
    (h : (bounceNext free axis positive here).1 = some p) : free p = true := by
  unfold bounceNext at h
  simp only at h
  split at h
  · cases h
    assumption
  · split at h
    · cases h
      assumption
    · cases h

theorem bounceNext_tag (axis : Position) (positive : Bool) :
    (bounceNext free axis positive here).2.tag = (bounce axis positive).tag := by
  unfold bounceNext
  simp only
  split
  · rfl
  · split <;> rfl

theorem randomNext_free {σ : Type} [WordSource σ] {attempts : Nat} {g : σ} {p : Position}
    (h : (randomNext free here attempts g).1 = some p) : free p = true := by
  induction attempts generalizing g with
  | zero => cases h
  | succ attempts ih =>
    simp only [randomNext] at h
    split at h
    · cases h
      assumption
    · exact ih h

theorem circularNext_free {turn : Int} {p : Position} (h : (circularNext free turn here).1 = some p) :
    free p = true := by
  unfold circularNext at h
  simp only at h
  split at h
  · cases h
    assumption
  · split at h
    · cases h
      assumption
    · cases h

theorem circularNext_tag (turn : Int) : (circularNext free turn here).2.tag = (circular turn).tag := by
  unfold circularNext
  simp only
  split
  · rfl
  · split <;> rfl

theorem spiralNext_free {turn leg walked : Int} {p : Position}
    (h : (spiralNext free turn leg walked here).1 = some p) : free p = true := by
  unfold spiralNext at h
  simp only at h
  split at h
  · cases h
  · rename_i hf
    have hf : free (here + clockwise turn) = true := by simpa using hf
    split at h <;> cases h <;> exact hf

theorem spiralNext_tag (turn leg walked : Int) :
    (spiralNext free turn leg walked here).2.tag = (spiral turn leg walked).tag := by
  unfold spiralNext
  simp only
  split
  · rfl
  · split <;> rfl

theorem chaseNext_free {player : Option Position} {p : Position}
    (h : (chaseNext free player here).1 = some p) : free p = true := by
  unfold chaseNext at h
  split at h
  · cases h
  · simp only at h
    split at h
    · rename_i hc
      cases h
      exact hc.2
    · exact List.find?_some h

theorem chaseNext_tag (player : Option Position) (chasing : Bool) :
    (chaseNext free player here).2.tag = (chase chasing).tag := by
  unfold chaseNext
  split
  · rfl
  · simp only
    split <;> rfl

/-- A guard decides from its post, wherever that is. -/
theorem guardNext_eq (turn : Int) (postX postY : Option Int) :
    ∃ post : Position, guardNext free turn postX postY here =
      if (here + clockwise turn).distance post ≤ guardRadius ∧ free (here + clockwise turn) then
        (some (here + clockwise turn), guard turn (some post.x) (some post.y))
      else (none, guard (nextTurn turn) (some post.x) (some post.y)) := by
  cases postX with
  | none => exact ⟨here, rfl⟩
  | some x =>
    cases postY with
    | none => exact ⟨here, rfl⟩
    | some y => exact ⟨⟨x, y⟩, rfl⟩

theorem guardNext_free {turn : Int} {postX postY : Option Int} {p : Position}
    (h : (guardNext free turn postX postY here).1 = some p) : free p = true := by
  obtain ⟨post, he⟩ := guardNext_eq turn postX postY
  rw [he] at h
  split at h
  · rename_i hc
    cases h
    exact hc.2
  · cases h

theorem guardNext_tag (turn : Int) (postX postY : Option Int) :
    (guardNext free turn postX postY here).2.tag = (guard turn postX postY).tag := by
  obtain ⟨post, he⟩ := guardNext_eq turn postX postY
  rw [he]
  split <;> rfl

variable {σ : Type} [WordSource σ]

/-- Whatever the strategy, it only answers with a free tile. -/
theorem next_free {s : Strategy} {player : Option Position} {g : σ} {p : Position}
    (h : (s.next free player here g).1 = some p) : free p = true := by
  cases s with
  | idle => cases h
  | bounce axis positive => exact bounceNext_free h
  | random =>
    have hr : (randomNext free here randomAttempts g).1 = some p := h
    exact randomNext_free hr
  | circular turn => exact circularNext_free h
  | spiral turn leg walked => exact spiralNext_free h
  | chase chasing => exact chaseNext_free h
  | guard turn postX postY => exact guardNext_free h

/-- A strategy stays of its kind. -/
theorem next_tag (s : Strategy) (player : Option Position) (g : σ) :
    (s.next free player here g).2.1.tag = s.tag := by
  cases s with
  | idle => rfl
  | bounce axis positive => exact bounceNext_tag axis positive
  | random => rfl
  | circular turn => exact circularNext_tag turn
  | spiral turn leg walked => exact spiralNext_tag turn leg walked
  | chase chasing => exact chaseNext_tag player chasing
  | guard turn postX postY => exact guardNext_tag turn postX postY

end Strategy

namespace Board

theorem isFree_inBounds {b : Board} {p : Position} (h : b.isFree p = true) : b.inBounds p = true := by
  simp only [isFree, Bool.and_eq_true] at h
  exact h.1.1

variable {σ : Type} [WordSource σ]

/-- A tick of one enemy replaces that enemy alone, by one of the same identity that stands where it
stood or on a free tile. -/
theorem tickEnemy_spec (player : Option Position) (i : Nat) (b : Board) (g : σ) :
    (b.tickEnemy player i g).1 = b ∨ ∃ e e', b.enemies[i]? = some e ∧
      (b.tickEnemy player i g).1 = { b with enemies := b.enemies.set i e' } ∧
      e'.identity = e.identity ∧ (e'.position = e.position ∨ b.isFree e'.position = true) := by
  unfold tickEnemy
  split
  · exact Or.inl rfl
  · rename_i e he
    refine Or.inr ⟨e, _, he, rfl, ?_, ?_⟩
    · simp only [Enemy.identity, Strategy.next_tag]
    · cases hn : (e.strategy.next b.isFree player e.position g).1 with
      | none => exact Or.inl (by simp)
      | some p => exact Or.inr (by simpa [hn] using Strategy.next_free hn)

theorem tickEnemy_develops (player : Option Position) (i : Nat) (b : Board) (g : σ) :
    Develops b (b.tickEnemy player i g).1 := by
  rcases b.tickEnemy_spec player i g with h | ⟨e, e', he, h, hid, -⟩
  · rw [h]
    exact Develops.refl b
  · rw [h]
    refine { Develops.refl b with enemies := ?_ }
    obtain ⟨hi, rfl⟩ := List.getElem?_eq_some_iff.1 he
    have hm : i < (b.enemies.map Enemy.identity).length := by rw [List.length_map]; exact hi
    have hg : (b.enemies.map Enemy.identity)[i] = b.enemies[i].identity := List.getElem_map _
    rw [List.map_set, hid, ← hg, List.set_getElem_self]

theorem WellFormed.tickEnemy {b : Board} (hb : b.WellFormed) (player : Option Position) (i : Nat) (g : σ) :
    (b.tickEnemy player i g).1.WellFormed := by
  rcases b.tickEnemy_spec player i g with h | ⟨e, e', he, h, -, hp⟩
  · rw [h]
    exact hb
  · rw [h]
    refine { hb with enemies_inside := fun d hd => ?_ }
    rcases List.mem_or_eq_of_mem_set hd with hd | rfl
    · exact hb.enemies_inside d hd
    · rcases hp with hp | hp
      · rw [hp]
        exact hb.enemies_inside e (List.mem_of_getElem? he)
      · have hin : b.inBounds d.position = true := isFree_inBounds hp
        exact hin

theorem tickAll_develops (player : Option Position) (is : List Nat) (b : Board) (g : σ) :
    Develops b (tickAll player is b g).1 := by
  induction is generalizing b g with
  | nil => exact Develops.refl b
  | cons i is ih =>
    exact (b.tickEnemy_develops player i g).trans (ih (b.tickEnemy player i g).1 (b.tickEnemy player i g).2.2)

/-- Each enemy sees the board that those before it have left, so the board stays well-formed along the
list. -/
theorem WellFormed.tickAll {b : Board} (hb : b.WellFormed) (player : Option Position) (is : List Nat)
    (g : σ) : (Board.tickAll player is b g).1.WellFormed := by
  induction is generalizing b g with
  | nil => exact hb
  | cons i is ih => exact ih (hb.tickEnemy player i g) (b.tickEnemy player i g).2.2

end Board

end ScriptedRobot
