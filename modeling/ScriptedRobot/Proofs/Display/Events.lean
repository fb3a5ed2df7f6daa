import Mathlib.Data.List.DropRight
import ScriptedRobot.Display.TurnView

/-!
# How many events are shown

Of the events of a turn the last ones are shown, in order and one in a row, and there is one row without an event if
nothing has happened. A bound on their number cuts off the earliest ones, but a bound of zero is none at all
(`recent_events`, `all_shown_for_zero`).
-/

namespace ScriptedRobot

namespace Display

mutual

/-- The tables of a display. -/
def tables : Display → List Table
  | line _ | label _ _ | symbols _ => []
  | panel _ body => body.tables
  | group parts | columns parts => tablesOf parts
  | table content => [content]

/-- The tables of some displays. -/
def tablesOf : List Display → List Table
  | [] => []
  | d :: rest => d.tables ++ tablesOf rest

end

theorem tablesOf_symbols {α : Type} (rows : List α) (f : α → List StyledSymbol) :
    tablesOf (rows.map fun row => symbols (f row)) = [] := by
  induction rows with
  | nil => rfl
  | cons row rows ih => exact ih

end Display

namespace TurnPayload

/-- The row of an event. -/
def eventRow (e : EventRecord) : List String := [e.kind, details e.payload]

/-- How many of so many events are shown: no more than the bound says, but all of them if it says zero. -/
def shownCount (bound total : Nat) : Nat := if bound = 0 then total else min bound total

theorem latest_eq {α : Type} (bound : Nat) (events : List α) :
    latest bound events = events.rtake (shownCount bound events.length) := by
  by_cases hzero : bound = 0
  · subst hzero
    simp [latest, shownCount, List.rtake]
  · have hpos : (bound : Int) > 0 := by omega
    have hcut : events.length - min bound events.length = events.length - bound := by omega
    rw [latest, if_pos hpos, shownCount, if_neg hzero, List.rtake, hcut, Int.toNat_natCast]

theorem eventRows_eq (p : TurnPayload) (bound : Nat) : p.eventRows bound =
    if p.events.getD [] = [] then [["-", "None"]]
    else ((p.events.getD []).rtake (shownCount bound (p.events.getD []).length)).map eventRow := by
  rw [eventRows, shownEvents, latest_eq]
  simp only [List.isEmpty_iff]
  rfl

theorem tables_boardSide (p : TurnPayload) : p.boardSide.tables = [] := by
  simp [boardSide, Display.ofText, Display.tables, Display.tablesOf, Display.tablesOf_symbols]

theorem tables_robotSide (p : TurnPayload) (bound : Int) :
    (p.robotSide bound).tables = [statusTable p.state, p.eventTable bound] := by
  simp [robotSide, Display.tables, Display.tablesOf]

/-- What is shown of a turn has one table of events. -/
theorem eventTables_shown (p : TurnPayload) (bound : Int) :
    ((Display.columns [.panel "Level" p.boardSide, .panel "Robot" (p.robotSide bound)]).tables.filter fun t =>
      t.title == some "Recent Events") = [p.eventTable bound] := by
  simp [Display.tables, Display.tablesOf, tables_boardSide, tables_robotSide, statusTable, eventTable]

/-- A turn is shown unless a number in it is too long, and then with one table of events. Of the events it has the last
ones, as many as the bound says, but all of them if the bound is zero. -/
theorem recent_events (p : TurnPayload) (bound : Nat) :
    ∃ d t, p.display bound = (if p.isShowable bound then .ok d else .error .unwritable) ∧
      (d.tables.filter fun t => t.title == some "Recent Events") = [t] ∧
      t.rows = if p.events.getD [] = [] then [["-", "None"]]
        else ((p.events.getD []).rtake (shownCount bound (p.events.getD []).length)).map eventRow :=
  ⟨_, _, rfl, p.eventTables_shown bound, p.eventRows_eq bound⟩

/-- A turn in which an item was fetched. -/
def fetching : TurnPayload where
  turn := 1
  result := "Grabbed items!"
  state := { levelIndex := 0, levelName := "Shed", width := 1, height := 1, robot := ⟨0, 0⟩ }
  events := some [⟨"ITEMS_COLLECTED", [("items", .arr [.str "coin"])]⟩, ⟨"GRAB", [("result", .str "Grabbed items!")]⟩]

/-- Who wants to see none of the events sees all of them. -/
theorem all_shown_for_zero : ∃ d t, fetching.display 0 = .ok d ∧
    (d.tables.filter fun t => t.title == some "Recent Events") = [t] ∧
    t.rows = [["ITEMS_COLLECTED", "items=['coin']"], ["GRAB", "result=Grabbed items!"]] ∧
    t.rows ≠ ((fetching.events.getD []).rtake (min 0 (fetching.events.getD []).length)).map eventRow := by
  have hshowable : fetching.isShowable 0 = true := by decide +kernel
  refine ⟨_, _, if_pos hshowable, fetching.eventTables_shown 0, by decide +kernel, ?_⟩
  decide +kernel

end TurnPayload

end ScriptedRobot
