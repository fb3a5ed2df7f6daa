/-!
# Positions on the board

Columns grow to the right and rows grow downwards; `(0, 0)` is the upper left corner. The same pairs
serve as displacements.
-/

namespace ScriptedRobot

/-- A tile of the board, or a displacement between two tiles. -/
structure Position where
  x : Int
  y : Int
  deriving DecidableEq, Repr, Inhabited

namespace Position

instance : Add Position := ⟨fun a b => ⟨a.x + b.x, a.y + b.y⟩⟩

@[simp] theorem add_x (a b : Position) : (a + b).x = a.x + b.x := rfl

@[simp] theorem add_y (a b : Position) : (a + b).y = a.y + b.y := rfl

/-- Positions are listed by column, then by row. -/
def before (a b : Position) : Bool := a.x < b.x || (a.x == b.x && a.y ≤ b.y)

/-- The number of orthogonal steps between two positions. -/
def distance (a b : Position) : Nat := (a.x - b.x).natAbs + (a.y - b.y).natAbs

/-- A position as it is written in messages. -/
def text (p : Position) : String := s!"({p.x}, {p.y})"

end Position

inductive Heading where
  | up
  | down
  | left
  | right
  deriving DecidableEq, Repr

namespace Heading

def all : List Heading := [up, down, left, right]

def step : Heading → Position
  | up => ⟨0, -1⟩
  | down => ⟨0, 1⟩
  | left => ⟨-1, 0⟩
  | right => ⟨1, 0⟩

def word : Heading → String
  | up => "up"
  | down => "down"
  | left => "left"
  | right => "right"

/-- The heading whose step is the given displacement. -/
def ofStep? (p : Position) : Option Heading := all.find? fun h => h.step == p

/-- A displacement is the step of a heading exactly when it reads back as that heading. -/
theorem ofStep?_eq_some_iff {p : Position} {h : Heading} : ofStep? p = some h ↔ h.step = p := by
  constructor
  · intro found
    simpa using List.find?_some found
  · rintro rfl
    cases h <;> decide

end Heading

end ScriptedRobot
