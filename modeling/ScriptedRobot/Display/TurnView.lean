import ScriptedRobot.Display.BoardView
import ScriptedRobot.Json.Limits
import ScriptedRobot.Json.Shown

/-!
# The view of a turn

What a player sees after a batch: the board and the result on one side, the state of the robot and the
latest events on the other. A turn with a number that is too long to be written is not shown at all.
-/

namespace ScriptedRobot

/-- A text, or another one in place of the empty text. -/
def orElse (text other : String) : String := if text = "" then other else text

namespace TurnPayload

/-- The latest events: at most so many. Zero sets no limit, and a negative number leaves out as many
of the earliest instead. -/
def latest {α : Type} (count : Int) (events : List α) : List α :=
  if count > 0 then events.drop (events.length - count.toNat) else events.drop count.natAbs

/-- The circumstances of an event in one text. -/
def details (payload : List (String × Json)) : String :=
  if payload.isEmpty then "-"
  else ", ".intercalate (payload.map fun (key, value) => key ++ "=" ++ value.shown)

def shownEvents (p : TurnPayload) (maxEvents : Int) : List EventRecord :=
  latest maxEvents (p.events.getD [])

def eventRows (p : TurnPayload) (maxEvents : Int) : List (List String) :=
  if (p.events.getD []).isEmpty then [["-", "None"]]
  else (p.shownEvents maxEvents).map fun e => [e.kind, details e.payload]

def eventTable (p : TurnPayload) (maxEvents : Int) : Table :=
  ⟨some "Recent Events", true, ["Kind", "Detail"], p.eventRows maxEvents⟩

/-- How many turns were spent, and out of how many if there is a limit. -/
def turnsText (s : StateSnapshot) : String :=
  if s.maxTurns = 0 then toString s.turns else s!"{s.turns}/{s.maxTurns}"

/-- The number of the level as it is shown, counted from one. -/
def levelNumber (s : StateSnapshot) : Int := s.levelIndex + 1

def statusTable (s : StateSnapshot) : Table :=
  { title := none
    hasHeader := false
    header := ["Field", "Value"]
    rows :=
      [["Level", toString (levelNumber s)],
       ["Position", s.robot.text],
       ["Turns", turnsText s],
       ["Credits", toString s.credits],
       ["Inventory", orElse (", ".intercalate s.inventory) "None"],
       ["Auto-grab", if s.autoGrab then "on" else "off"],
       ["Complete", if s.finished then "yes" else "no"],
       ["Functions", "\n".intercalate s.functions]] }

def heading (p : TurnPayload) : String := s!"Batch {p.turn} | {p.state.levelName}"

/-- How many events are shown unless something else is asked for. -/
def defaultEvents : Int := 8

def shownNumbers (p : TurnPayload) : List Int :=
  [p.turn, levelNumber p.state, p.state.robot.x, p.state.robot.y, p.state.turns, p.state.maxTurns,
   p.state.credits]

/-- Are all numbers that are shown short enough to be written? -/
def isShowable (p : TurnPayload) (maxEvents : Int) : Bool :=
  p.shownNumbers.all Text.Numeral.isWritable
    && (p.shownEvents maxEvents).all fun e => Json.fieldsAreWritable e.payload

/-- The board and the result. -/
def boardSide (p : TurnPayload) : Display :=
  let rows := p.state.boardRows.map fun row => Display.symbols (row.map Tile.styled)
  .group
    [.ofText p.heading (some "bold"), .panel "Grid" (.group rows),
     .panel "Result" (.ofText (orElse p.result "-") none)]

def robotSide (p : TurnPayload) (maxEvents : Int) : Display :=
  .group [.panel "Status" (.table (statusTable p.state)), .table (p.eventTable maxEvents)]

/-- A turn as a player sees it. -/
def display (p : TurnPayload) (maxEvents : Int) : Except Text.NumeralFault Display :=
  if p.isShowable maxEvents then
    .ok (.columns [.panel "Level" p.boardSide, .panel "Robot" (p.robotSide maxEvents)])
  else .error .unwritable

end TurnPayload

end ScriptedRobot
