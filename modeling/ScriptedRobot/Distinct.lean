/-!
# Finite sets in order

A finite set kept as the list of its members, each once, in the order in which they came in. The list
is the view: `mem_insert`, `mem_erase` and `mem_ofList` say what an operation does to the members,
and `nodup` makes the length of the list the size of the set.
-/

namespace ScriptedRobot

/-- A list without repetitions. -/
structure Distinct (α : Type) where
  /-- The members in the order in which they came in. -/
  toList : List α
  nodup : toList.Nodup

namespace Distinct

variable {α : Type}

def empty : Distinct α := ⟨[], .nil⟩

instance : Inhabited (Distinct α) := ⟨empty⟩

instance : Membership α (Distinct α) := ⟨fun s a => a ∈ s.toList⟩

theorem mem_def {s : Distinct α} {a : α} : a ∈ s ↔ a ∈ s.toList := Iff.rfl

def size (s : Distinct α) : Nat := s.toList.length

def filter (keep : α → Bool) (s : Distinct α) : Distinct α :=
  ⟨s.toList.filter keep, s.nodup.filter keep⟩

@[simp] theorem not_mem_empty (a : α) : a ∉ (empty : Distinct α) := by
  simp [mem_def, empty]

@[simp] theorem mem_filter {s : Distinct α} {keep : α → Bool} {a : α} :
    a ∈ s.filter keep ↔ a ∈ s ∧ keep a := by
  simp [mem_def, filter]

variable [DecidableEq α]

instance (a : α) (s : Distinct α) : Decidable (a ∈ s) := inferInstanceAs (Decidable (a ∈ s.toList))

/-- Adds a member at the end, unless it is there. -/
def insert (s : Distinct α) (a : α) : Distinct α :=
  if h : a ∈ s then s
  else ⟨s.toList ++ [a], by
    refine List.nodup_append.2 ⟨s.nodup, by simp, ?_⟩
    rintro x hx y hy rfl
    exact h (List.mem_singleton.1 hy ▸ hx)⟩

def erase (s : Distinct α) (a : α) : Distinct α := s.filter fun b => b != a

def ofList (as : List α) : Distinct α := as.foldl insert empty

@[simp] theorem mem_insert {s : Distinct α} {a b : α} : b ∈ s.insert a ↔ b ∈ s ∨ b = a := by
  unfold insert
  split
  · rename_i h
    constructor
    · exact .inl
    · rintro (hb | rfl)
      · exact hb
      · exact h
  · simp [mem_def]

@[simp] theorem mem_erase {s : Distinct α} {a b : α} : b ∈ s.erase a ↔ b ∈ s ∧ b ≠ a := by
  simp [erase]

theorem mem_foldl_insert {as : List α} {s : Distinct α} {b : α} :
    b ∈ as.foldl insert s ↔ b ∈ s ∨ b ∈ as := by
  induction as generalizing s with
  | nil => simp
  | cons a as ih => simp [ih, or_assoc]

@[simp] theorem mem_ofList {as : List α} {b : α} : b ∈ ofList as ↔ b ∈ as := by
  simp [ofList, mem_foldl_insert]

end Distinct

end ScriptedRobot
