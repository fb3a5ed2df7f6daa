import Mathlib.Data.List.Nodup
import Mathlib.Logic.Relation
import ScriptedRobot.Proofs.Board.Ticking

/-!
# The enemies advance one after the other

Each enemy decides on the board that those before it have left. `midway` is that board, told from the
boards before and after all of them have moved, and `TicksTo` is what the tick of one enemy comes to.
From both follows what holds of a whole advance (`SafeAdvance`), whatever the board looks like.
-/

namespace ScriptedRobot

namespace Board

/-- The board when it is an enemy's turn: the enemies before it have moved, the others have not. -/
def midway (b b' : Board) (i : Nat) : Board := { b with enemies := b'.enemies.take i ++ b.enemies.drop i }

/-- No two enemies stand on one tile. -/
def Apart (b : Board) : Prop := (b.enemies.map (·.position)).Nodup

/-- An advance of the enemies in which each of them steps onto a free tile or stays. -/
structure SafeAdvance (b b' : Board) (stunned : Nat → Bool) (moves : List EnemyMove) : Prop where
  /-- The moves are listed in the order of the enemies, and each enemy moves at most once. -/
  ordered : (moves.map (·.index)).Pairwise (· < ·)
  /-- No stunned enemy moves. -/
  awake : ∀ m ∈ moves, stunned m.index = false
  /-- A move leads from where its enemy stood to where it stands now. -/
  places : ∀ m ∈ moves, ∃ e e', b.enemies[m.index]? = some e ∧ b'.enemies[m.index]? = some e' ∧
    m.old = e.position ∧ m.new = e'.position
  /-- When an enemy moves, its new tile is on the board, neither a blocker nor a closed door, and not the tile
  of any enemy. -/
  free : ∀ m ∈ moves, b.inBounds m.new = true ∧ m.new ∉ b.blockers ∧ (m.new ∈ b.doors → m.new ∈ b.openDoors) ∧
    ∀ e ∈ (b.midway b' m.index).enemies, e.position ≠ m.new
  /-- Nothing changes but the enemies. -/
  others : ∃ enemies, b' = { b with enemies := enemies }
  /-- They are the same enemies in the same order: each keeps its axis, its pattern and its kind. -/
  same : b'.enemies.map Enemy.identity = b.enemies.map Enemy.identity
  /-- An enemy without a move stays where it is. -/
  still : ∀ (i : Nat) (e e' : Enemy), b.enemies[i]? = some e → b'.enemies[i]? = some e' →
    (∀ m ∈ moves, m.index ≠ i) → e'.position = e.position
  /-- A stunned enemy remembers what it did, too. -/
  frozen : ∀ i, stunned i = true → b'.enemies[i]? = b.enemies[i]?
  /-- A bouncing enemy that is not stunned shows the sense in which its strategy walks; the others show what they
  showed. -/
  sense : ∀ (i : Nat) (e e' : Enemy), b.enemies[i]? = some e → b'.enemies[i]? = some e' → stunned i = false →
    e'.positive = e'.strategy.sense?.getD e.positive

/-! ## One enemy -/

variable {σ : Type} [WordSource σ]

/-- An enemy's tick on a board: its strategy names the tile to go to, if any, and what it will be next turn. -/
def TicksTo (σ : Type) [WordSource σ] (b : Board) (player : Option Position) (e e' : Enemy)
    (target : Option Position) : Prop :=
  ∃ g g' : σ, e.strategy.next b.isFree player e.position g = (target, e'.strategy, g') ∧
    e' = { e with
      position := target.getD e.position
      positive := e'.strategy.sense?.getD e.positive
      strategy := e'.strategy }

theorem TicksTo.free {b : Board} {player target : Option Position} {e e' : Enemy}
    (h : TicksTo σ b player e e' target) {p : Position} (hp : target = some p) : b.isFree p = true := by
  obtain ⟨g, g', hnext, -⟩ := h
  have hgoes : (e.strategy.next b.isFree player e.position g).1 = some p := by rw [hnext, hp]
  exact Strategy.next_free hgoes

theorem TicksTo.identity {b : Board} {player target : Option Position} {e e' : Enemy}
    (h : TicksTo σ b player e e' target) : e'.identity = e.identity := by
  obtain ⟨g, g', hnext, he⟩ := h
  have htag : (e.strategy.next b.isFree player e.position g).2.1.tag = e.strategy.tag :=
    Strategy.next_tag e.strategy player g
  rw [hnext] at htag
  rw [Enemy.identity, Enemy.identity, htag, he]

theorem TicksTo.position {b : Board} {player target : Option Position} {e e' : Enemy}
    (h : TicksTo σ b player e e' target) : e'.position = target.getD e.position := by
  obtain ⟨-, -, -, he⟩ := h
  rw [he]

theorem TicksTo.sense {b : Board} {player target : Option Position} {e e' : Enemy}
    (h : TicksTo σ b player e e' target) : e'.positive = e'.strategy.sense?.getD e.positive := by
  obtain ⟨-, -, -, he⟩ := h
  rw [he]

/-- A free tile is on the board, is not barred, and has no enemy on it. -/
theorem isFree_iff {b : Board} {p : Position} : b.isFree p = true ↔
    b.inBounds p = true ∧ p ∉ b.blockers ∧ (p ∈ b.doors → p ∈ b.openDoors) ∧
      ∀ e ∈ b.enemies, e.position ≠ p := by
  have hblocked : b.isBlocked p = false ↔ p ∉ b.blockers ∧ (p ∈ b.doors → p ∈ b.openDoors) := by
    simp [isBlocked]
  rw [isFree, Bool.and_eq_true, Bool.and_eq_true, Bool.not_eq_true', Bool.not_eq_true', isOccupied_eq_false_iff, hblocked,
    and_assoc, and_assoc]

/-- The tick of an enemy that is there replaces that enemy alone, and reports where it has gone. -/
theorem tickEnemy_of_getElem? {b : Board} {i : Nat} {e : Enemy} (he : b.enemies[i]? = some e)
    (player : Option Position) (g : σ) :
    ∃ target e' g', TicksTo σ b player e e' target ∧
      b.tickEnemy player i g =
        ({ b with enemies := b.enemies.set i e' }, target.map fun p => ⟨i, e.position, p⟩, g') := by
  rcases hnext : e.strategy.next b.isFree player e.position g with ⟨target, strategy, g'⟩
  refine ⟨target, { e with
    position := target.getD e.position
    positive := strategy.sense?.getD e.positive
    strategy := strategy }, g', ⟨g, g', hnext, rfl⟩, ?_⟩
  unfold tickEnemy
  simp only [he, hnext]

theorem tickEnemy_getElem?_ne (b : Board) (player : Option Position) {i j : Nat} (h : i ≠ j) (g : σ) :
    (b.tickEnemy player i g).1.enemies[j]? = b.enemies[j]? := by
  cases he : b.enemies[i]? with
  | none => simp only [tickEnemy, he]
  | some e =>
    obtain ⟨target, e', g', -, htick⟩ := tickEnemy_of_getElem? he player g
    rw [htick]
    exact List.getElem?_set_ne h

theorem tickEnemy_others (b : Board) (player : Option Position) (i : Nat) (g : σ) :
    ∃ enemies, (b.tickEnemy player i g).1 = { b with enemies := enemies } := by
  cases he : b.enemies[i]? with
  | none => exact ⟨b.enemies, by simp only [tickEnemy, he]⟩
  | some e =>
    obtain ⟨target, e', g', -, htick⟩ := tickEnemy_of_getElem? he player g
    exact ⟨b.enemies.set i e', by rw [htick]⟩

/-- An enemy that goes to a free tile goes where none of the others stands. -/
theorem Apart.tickEnemy {b : Board} (h : b.Apart) (player : Option Position) (i : Nat) (g : σ) :
    (b.tickEnemy player i g).1.Apart := by
  cases he : b.enemies[i]? with
  | none =>
    simp only [Board.tickEnemy, he]
    exact h
  | some e =>
    obtain ⟨target, e', g', hticks, htick⟩ := tickEnemy_of_getElem? he player g
    obtain ⟨hi, rfl⟩ := List.getElem?_eq_some_iff.1 he
    rw [htick]
    show ((b.enemies.set i e').map (·.position)).Nodup
    rw [List.map_set]
    cases htarget : target with
    | none =>
      have hlength : i < (b.enemies.map (·.position)).length := by rwa [List.length_map]
      have hstays : e'.position = (b.enemies.map (·.position))[i] := by
        rw [hticks.position, htarget, List.getElem_map]
        rfl
      rw [hstays, List.set_getElem_self]
      exact h
    | some p =>
      have hfree := (isFree_iff.1 (hticks.free htarget)).2.2.2
      have hnew : e'.position ∉ b.enemies.map (·.position) := by
        rw [hticks.position, htarget]
        intro hmem
        obtain ⟨d, hd, hp⟩ := List.mem_map.1 hmem
        exact hfree d hd hp
      exact List.Nodup.set h hnew

/-! ## All enemies in turn -/

theorem tickAll_cons (player : Option Position) (i : Nat) (is : List Nat) (b : Board) (g : σ) :
    tickAll player (i :: is) b g =
      ((tickAll player is (b.tickEnemy player i g).1 (b.tickEnemy player i g).2.2).1,
        (b.tickEnemy player i g).2.1.toList ++
          (tickAll player is (b.tickEnemy player i g).1 (b.tickEnemy player i g).2.2).2.1,
        (tickAll player is (b.tickEnemy player i g).1 (b.tickEnemy player i g).2.2).2.2) := rfl

theorem tickAll_others (player : Option Position) (is : List Nat) (b : Board) (g : σ) :
    ∃ enemies, (tickAll player is b g).1 = { b with enemies := enemies } := by
  induction is generalizing b g with
  | nil => exact ⟨b.enemies, rfl⟩
  | cons i is ih =>
    obtain ⟨between, hfirst⟩ := b.tickEnemy_others player i g
    obtain ⟨enemies, hlater⟩ := ih (b.tickEnemy player i g).1 (b.tickEnemy player i g).2.2
    exact ⟨enemies, by rw [tickAll_cons, hlater, hfirst]⟩

theorem tickAll_getElem?_of_not_mem {player : Option Position} {is : List Nat} {j : Nat} (h : j ∉ is) (b : Board)
    (g : σ) : (tickAll player is b g).1.enemies[j]? = b.enemies[j]? := by
  induction is generalizing b g with
  | nil => rfl
  | cons i is ih =>
    rw [List.mem_cons, not_or] at h
    rw [tickAll_cons]
    simp only [ih h.2]
    exact b.tickEnemy_getElem?_ne player (Ne.symm h.1) g

theorem tickEnemy_move {b : Board} {player : Option Position} {i : Nat} {g : σ} {m : EnemyMove}
    (h : (b.tickEnemy player i g).2.1 = some m) : m.index = i := by
  cases he : b.enemies[i]? with
  | none =>
    simp only [tickEnemy, he] at h
    cases h
  | some e =>
    obtain ⟨target, e', g', -, htick⟩ := tickEnemy_of_getElem? he player g
    rw [htick] at h
    obtain ⟨p, -, rfl⟩ := Option.map_eq_some_iff.1 h
    rfl

/-- The moves are those of some of the enemies, in the order in which they had their turns. -/
theorem tickAll_moves (player : Option Position) (is : List Nat) (b : Board) (g : σ) :
    ((tickAll player is b g).2.1.map (·.index)).Sublist is := by
  induction is generalizing b g with
  | nil => exact List.Sublist.refl _
  | cons i is ih =>
    rw [tickAll_cons]
    have hlater := ih (b.tickEnemy player i g).1 (b.tickEnemy player i g).2.2
    cases hmove : (b.tickEnemy player i g).2.1 with
    | none => exact hlater.cons i
    | some m =>
      have hindex : m.index = i := tickEnemy_move hmove
      rw [Option.toList_some, List.singleton_append, List.map_cons, hindex]
      exact hlater.cons_cons i

theorem Apart.tickAll {b : Board} (h : b.Apart) (player : Option Position) (is : List Nat) (g : σ) :
    (Board.tickAll player is b g).1.Apart := by
  induction is generalizing b g with
  | nil => exact h
  | cons i is ih => exact ih (h.tickEnemy player i g) (b.tickEnemy player i g).2.2

/-- Before the first of some enemies ticks, nothing has changed. -/
theorem midway_eq_self {b b' : Board} {i : Nat} (h : ∀ j < i, b'.enemies[j]? = b.enemies[j]?) :
    b.midway b' i = b := by
  have htake : b'.enemies.take i = b.enemies.take i := by
    apply List.ext_getElem?
    intro j
    rw [List.getElem?_take, List.getElem?_take]
    split
    · exact h j ‹_›
    · rfl
  rw [midway, htake, List.take_append_drop]

/-- What an enemy sees does not depend on whether its turn is counted from before or from after the ticks of
enemies in front of it. -/
theorem midway_congr {a b c : Board} {i : Nat} (others : ∃ enemies, b = { a with enemies := enemies })
    (h : ∀ j ≥ i, b.enemies[j]? = a.enemies[j]?) : b.midway c i = a.midway c i := by
  have hdrop : b.enemies.drop i = a.enemies.drop i := by
    apply List.ext_getElem?
    intro j
    rw [List.getElem?_drop, List.getElem?_drop, h (i + j) (Nat.le_add_right i j)]
  obtain ⟨enemies, rfl⟩ := others
  rw [midway, hdrop, midway]

/-- An enemy that has its turn ticks on the board that those before it have left, and there is a move of it
exactly if it goes somewhere. -/
theorem tickAll_ticks (player : Option Position) {is : List Nat} (sorted : is.Pairwise (· < ·)) {i : Nat}
    (hi : i ∈ is) {b : Board} {e : Enemy} (he : b.enemies[i]? = some e) (g : σ) :
    ∃ target e', TicksTo σ (b.midway (tickAll player is b g).1 i) player e e' target ∧
      (tickAll player is b g).1.enemies[i]? = some e' ∧
      ∀ m, m ∈ (tickAll player is b g).2.1 ∧ m.index = i ↔ target = some m.new ∧ m = ⟨i, e.position, m.new⟩ := by
  induction is generalizing b g with
  | nil => cases hi
  | cons first is ih =>
    obtain ⟨hfirst, hsorted⟩ := List.pairwise_cons.1 sorted
    have hmoves := tickAll_moves player is (b.tickEnemy player first g).1 (b.tickEnemy player first g).2.2
    rw [tickAll_cons]
    rcases List.mem_cons.1 hi with rfl | hi
    · -- the enemy is the first to tick, and those after it leave it alone
      have hlater : i ∉ is := fun hmem => Nat.lt_irrefl i (hfirst i hmem)
      obtain ⟨target, e', g', hticks, htick⟩ := tickEnemy_of_getElem? he player g
      obtain ⟨hlt, -⟩ := List.getElem?_eq_some_iff.1 he
      have hmidway : b.midway (tickAll player is (b.tickEnemy player i g).1 (b.tickEnemy player i g).2.2).1 i = b := by
        apply midway_eq_self
        intro j hj
        have hother : j ∉ is := fun hmem => Nat.lt_asymm hj (hfirst j hmem)
        rw [tickAll_getElem?_of_not_mem hother, b.tickEnemy_getElem?_ne player (Nat.ne_of_gt hj) g]
      refine ⟨target, e', ?_, ?_, ?_⟩
      · rw [hmidway]
        exact hticks
      · rw [tickAll_getElem?_of_not_mem hlater, htick]
        exact List.getElem?_set_self hlt
      · intro m
        have hnone : ∀ m ∈ (tickAll player is (b.tickEnemy player i g).1 (b.tickEnemy player i g).2.2).2.1,
            m.index ≠ i := by
          intro m hm heq
          exact hlater (heq ▸ hmoves.subset (List.mem_map_of_mem hm))
        rw [htick] at hnone ⊢
        cases target with
        | none =>
          simp only [Option.map_none, Option.toList_none, List.nil_append, reduceCtorEq, false_and, iff_false]
          rintro ⟨hm, heq⟩
          exact hnone m hm heq
        | some p =>
          simp only [Option.map_some, Option.toList_some, List.singleton_append, List.mem_cons,
            Option.some.injEq]
          constructor
          · rintro ⟨rfl | hm, heq⟩
            · exact ⟨rfl, rfl⟩
            · exact absurd heq (hnone m hm)
          · rintro ⟨rfl, hm⟩
            exact ⟨.inl hm, by rw [hm]⟩
    · -- the enemy comes later, and the first one has left it alone
      have hne : first ≠ i := Nat.ne_of_lt (hfirst i hi)
      have he' : (b.tickEnemy player first g).1.enemies[i]? = some e := by
        rw [b.tickEnemy_getElem?_ne player hne g, he]
      obtain ⟨target, e', hticks, hafter, hmove⟩ := ih hsorted hi he' (b.tickEnemy player first g).2.2
      refine ⟨target, e', ?_, hafter, ?_⟩
      · rw [midway_congr (b.tickEnemy_others player first g)] at hticks
        · exact hticks
        · intro j hj
          exact b.tickEnemy_getElem?_ne player (Nat.ne_of_lt (Nat.lt_of_lt_of_le (hfirst i hi) hj)) g
      · intro m
        rw [← hmove m]
        simp only [List.mem_append, Option.mem_toList]
        constructor
        · rintro ⟨hm | hm, heq⟩
          · exact absurd ((tickEnemy_move hm).symm.trans heq) hne
          · exact ⟨hm, heq⟩
        · rintro ⟨hm, heq⟩
          exact ⟨.inr hm, heq⟩

/-! ## The whole advance -/

section Advance

variable (b : Board) (player : Option Position) (stunned : Nat → Bool) (g : σ)

theorem mem_awake {i : Nat} : i ∈ (List.range b.enemies.length).filter (fun i => !stunned i) ↔
    i < b.enemies.length ∧ stunned i = false := by
  rw [List.mem_filter, List.mem_range, Bool.not_eq_true']

theorem awake_sorted : ((List.range b.enemies.length).filter fun i => !stunned i).Pairwise (· < ·) :=
  List.pairwise_lt_range.filter _

theorem advance_frozen {i : Nat} (h : stunned i = true) :
    (b.advance player stunned g).1.enemies[i]? = b.enemies[i]? := by
  refine tickAll_getElem?_of_not_mem (fun hmem => ?_) b g
  rw [mem_awake, h] at hmem
  cases hmem.2

/-- Every enemy that is not stunned has its turn. -/
theorem advance_ticks {i : Nat} {e : Enemy} (he : b.enemies[i]? = some e) (awake : stunned i = false) :
    ∃ target e', TicksTo σ (b.midway (b.advance player stunned g).1 i) player e e' target ∧
      (b.advance player stunned g).1.enemies[i]? = some e' ∧
      ∀ m, m ∈ (b.advance player stunned g).2.1 ∧ m.index = i ↔
        target = some m.new ∧ m = ⟨i, e.position, m.new⟩ := by
  obtain ⟨hi, -⟩ := List.getElem?_eq_some_iff.1 he
  exact tickAll_ticks player (b.awake_sorted stunned) ((b.mem_awake stunned).2 ⟨hi, awake⟩) he g

/-- Every move is the tick of an enemy that is not stunned. -/
theorem advance_move {m : EnemyMove} (h : m ∈ (b.advance player stunned g).2.1) :
    stunned m.index = false ∧ ∃ e e', b.enemies[m.index]? = some e ∧
      (b.advance player stunned g).1.enemies[m.index]? = some e' ∧ m.old = e.position ∧
      TicksTo σ (b.midway (b.advance player stunned g).1 m.index) player e e' (some m.new) := by
  have hmem : m.index ∈ (List.range b.enemies.length).filter fun i => !stunned i :=
    (tickAll_moves player _ b g).subset (List.mem_map_of_mem h)
  obtain ⟨hi, awake⟩ := (b.mem_awake stunned).1 hmem
  have he : b.enemies[m.index]? = some b.enemies[m.index] := List.getElem?_eq_getElem hi
  obtain ⟨target, e', hticks, he', hmoves⟩ := b.advance_ticks player stunned g he awake
  obtain ⟨htarget, hm⟩ := (hmoves m).1 ⟨h, rfl⟩
  refine ⟨awake, _, e', he, he', congrArg EnemyMove.old hm, ?_⟩
  rw [← htarget]
  exact hticks

end Advance

/-- The second board is what becomes of the first when its enemies advance once: the player may be anywhere or
nowhere, any of them may be stunned, and the source may give any words. -/
def AdvancesTo (σ : Type) [WordSource σ] (b b' : Board) : Prop :=
  ∃ (player : Option Position) (stunned : Nat → Bool) (g : σ), b' = (b.advance player stunned g).1

theorem Apart.advances {b b' : Board} (h : b.Apart) (k : Relation.ReflTransGen (AdvancesTo σ) b b') :
    b'.Apart := by
  induction k with
  | refl => exact h
  | tail _ hstep ih =>
    obtain ⟨player, stunned, g, rfl⟩ := hstep
    exact ih.tickAll player _ g

/-- Whatever the board, the strategies of its enemies and the source of random numbers, an advance is safe; and
enemies that stand on tiles of their own do so however often they advance. -/
theorem advance_safe (b : Board) (player : Option Position) (stunned : Nat → Bool) (g : σ) :
    SafeAdvance b (b.advance player stunned g).1 stunned (b.advance player stunned g).2.1 ∧
      ∀ b', Relation.ReflTransGen (AdvancesTo σ) b b' → b.Apart → b'.Apart := by
  refine ⟨?_, fun b' advances apart => apart.advances advances⟩
  exact
    { ordered := (b.awake_sorted stunned).sublist (tickAll_moves player _ b g)
      awake := fun m hm => (b.advance_move player stunned g hm).1
      places := by
        intro m hm
        obtain ⟨-, e, e', he, he', hold, hticks⟩ := b.advance_move player stunned g hm
        exact ⟨e, e', he, he', hold, hticks.position.symm⟩
      free := by
        intro m hm
        obtain ⟨-, e, e', -, -, -, hticks⟩ := b.advance_move player stunned g hm
        exact isFree_iff.1 (hticks.free rfl)
      others := tickAll_others player _ b g
      same := (tickAll_develops player _ b g).enemies
      still := by
        intro i e e' he he' hnone
        cases hstunned : stunned i with
        | true =>
          rw [b.advance_frozen player stunned g hstunned, he] at he'
          rw [Option.some.inj he']
        | false =>
          obtain ⟨target, d, hticks, hd, hmoves⟩ := b.advance_ticks player stunned g he hstunned
          rw [hd] at he'
          rw [← Option.some.inj he', hticks.position]
          cases htarget : target with
          | none => rfl
          | some p =>
            have hm := (hmoves ⟨i, e.position, p⟩).2 ⟨htarget, rfl⟩
            exact absurd rfl (hnone _ hm.1)
      frozen := fun i hstunned => b.advance_frozen player stunned g hstunned
      sense := by
        intro i e e' he he' awake
        obtain ⟨target, d, hticks, hd, -⟩ := b.advance_ticks player stunned g he awake
        rw [hd] at he'
        rw [← Option.some.inj he']
        exact hticks.sense }

end Board

end ScriptedRobot
