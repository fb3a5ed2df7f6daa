/-!
# Countdowns

What lasts a number of turns: a list of keys with the turns they have left. A tick takes one turn from
each and drops those that have none left after it.
-/

namespace ScriptedRobot

structure Countdown (κ : Type) where
  /-- The keys, each once, with their turns. -/
  entries : List (κ × Nat)

namespace Countdown

variable {κ : Type}

def empty : Countdown κ := ⟨[]⟩

instance : Inhabited (Countdown κ) := ⟨empty⟩

def keys (c : Countdown κ) : List κ := c.entries.map (·.1)

def tick (c : Countdown κ) : Countdown κ :=
  ⟨(c.entries.filter fun e => e.2 > 1).map fun e => (e.1, e.2 - 1)⟩

/-- A tick takes one turn from each key and drops those that had but one. -/
theorem mem_tick {c : Countdown κ} {k : κ} {n : Nat} :
    (k, n) ∈ c.tick.entries ↔ (k, n + 1) ∈ c.entries ∧ 0 < n := by
  simp only [tick, List.mem_map, List.mem_filter, decide_eq_true_eq, Prod.mk.injEq]
  constructor
  · rintro ⟨⟨k', m⟩, ⟨mem, gt⟩, rfl, rfl⟩
    simp only at gt ⊢
    have : m - 1 + 1 = m := by omega
    exact ⟨this ▸ mem, by omega⟩
  · rintro ⟨mem, pos⟩
    exact ⟨(k, n + 1), ⟨mem, by simp only; omega⟩, rfl, rfl⟩

/-- Looking a key up is not disturbed by dropping the entries of another key. -/
theorem lookup_filter_ne [BEq κ] [LawfulBEq κ] {β : Type} {k k' : κ} (h : k' ≠ k) (es : List (κ × β)) :
    (es.filter fun e => e.1 != k).lookup k' = es.lookup k' := by
  induction es with
  | nil => rfl
  | cons e es ih =>
    obtain ⟨a, m⟩ := e
    by_cases hk : k' = a
    · subst hk
      simp [h]
    · have differs : (k' == a) = false := by simpa using hk
      by_cases ha : a = k
      · subst ha
        simp [List.lookup_cons, differs, ih]
      · simp [List.lookup_cons, ha, differs, ih]

/-- After a tick a key that came once has one turn less, if it has any left. -/
theorem lookup_tick [BEq κ] [LawfulBEq κ] {es : List (κ × Nat)} (once : (es.map (·.1)).Nodup) (k : κ) :
    ((es.filter fun e => e.2 > 1).map fun e => (e.1, e.2 - 1)).lookup k =
      (es.lookup k).bind fun n => if 1 < n then some (n - 1) else none := by
  induction es with
  | nil => rfl
  | cons e es ih =>
    obtain ⟨a, m⟩ := e
    obtain ⟨fresh, once⟩ := List.nodup_cons.1 once
    have hrest := ih once
    by_cases hk : k = a
    · subst hk
      have habsent : es.lookup k = none := by
        rw [List.lookup_eq_none_iff]
        intro e he
        have hlisted : e.1 ∈ es.map (·.1) := List.mem_map_of_mem he
        have hne : k ≠ e.1 := fun heq => fresh (heq ▸ hlisted)
        simpa using hne
      rw [habsent] at hrest
      by_cases hm : 1 < m
      · simp [hm]
      · simp [hm, hrest]
    · have differs : (k == a) = false := by simpa using hk
      by_cases hm : 1 < m <;> simp [hm, List.lookup_cons, differs, hrest]

def Once (c : Countdown κ) : Prop := c.keys.Nodup

theorem once_empty : (empty : Countdown κ).Once := List.nodup_nil

theorem Once.tick {c : Countdown κ} (h : c.Once) : c.tick.Once := by
  have hkeys : c.tick.keys = (c.entries.filter fun e => e.2 > 1).map (·.1) := by
    unfold keys Countdown.tick
    rw [List.map_map]
    rfl
  unfold Once
  rw [hkeys]
  exact h.sublist (List.filter_sublist.map _)

variable [DecidableEq κ]

def left? (c : Countdown κ) (k : κ) : Option Nat := c.entries.lookup k

def has (c : Countdown κ) (k : κ) : Bool := (c.left? k).isSome

/-- Gives a key a number of turns, whatever it had before. -/
def set (c : Countdown κ) (k : κ) (turns : Nat) : Countdown κ :=
  ⟨(k, turns) :: c.entries.filter fun e => e.1 != k⟩

@[simp] theorem left?_empty (k : κ) : (empty : Countdown κ).left? k = none := rfl

@[simp] theorem left?_set (c : Countdown κ) (k k' : κ) (n : Nat) :
    (c.set k n).left? k' = if k' = k then some n else c.left? k' := by
  by_cases h : k' = k
  · simp [left?, set, h]
  · have differs : (k' == k) = false := by simpa using h
    simp [left?, set, List.lookup_cons, h, differs, lookup_filter_ne]

theorem Once.set {c : Countdown κ} (h : c.Once) (k : κ) (turns : Nat) : (c.set k turns).Once := by
  have hothers : (c.entries.filter fun e => e.1 != k).map (·.1) = c.keys.filter (· != k) := by
    rw [keys, List.filter_map]
    rfl
  unfold Once keys Countdown.set
  rw [List.map_cons, hothers, List.nodup_cons]
  exact ⟨by simp, h.filter _⟩

/-- A tick takes one turn from a key, and the key with its last turn. -/
theorem Once.left?_tick {c : Countdown κ} (h : c.Once) (k : κ) :
    c.tick.left? k = (c.left? k).bind fun n => if 1 < n then some (n - 1) else none := lookup_tick h k

end Countdown

end ScriptedRobot
