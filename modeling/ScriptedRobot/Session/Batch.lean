import ScriptedRobot.Script.Reader
import ScriptedRobot.Session.Turn

/-!
# Commands and batches

A command is answered, checked for completion and reported. A script is run as one batch: its commands
in order until one of them collides, speaks of an obstacle or gives up.
-/

namespace ScriptedRobot

structure BatchReport where
  commands : List Command
  /-- The answers, and what the batch adds to them. -/
  results : List String := []
  executed : Nat := 0
  /-- Was the batch halted at an obstacle? -/
  halted : Bool := false
  collided : Bool := false
  completed : Bool := false
  deriving DecidableEq, Repr

namespace BatchReport

def summary (r : BatchReport) : String := "; ".intercalate r.results

def add (r : BatchReport) (result : String) : BatchReport := { r with results := r.results ++ [result] }

end BatchReport

/-- Why a batch breaks off. -/
inductive BatchFailure where
  /-- The script holds a numeral that is too long. -/
  | numeral (fault : Text.NumeralFault)
  /-- A level cannot be entered. -/
  | entry (failure : EntryFailure)
  deriving DecidableEq, Repr

namespace Session

variable {σ : Type}

def noCallsMessage : String := "No valid function calls found"

/-- What a halted batch adds to its results. -/
def haltMessage : String := "EXECUTION HALTED! Rewrite your program to avoid obstacles."

/-- What a batch adds to its results when it completes a level. -/
def achievement (s : Session σ) : String :=
  match s.spec.texts.achievement with
  | some text => if text = "" then "Level completed!" else text
  | none => "Level completed!"

/-- The message of a script that gives up. -/
def panicMessage (message : Option String) : String :=
  match message with
  | none | some "" => "explicit panic"
  | some text => text

section Commands

variable [WordSource σ]

def enterLevel (s : Session σ) (index : Int) (reply : Reply) :
    Session σ × Except EntryFailure Reply :=
  match s.load index with
  | (s, .ok _) => (s, .ok reply)
  | (s, .error failure) => (s, .error failure)

/-- Carries out a command that the level allows. -/
def perform (s : Session σ) (c : Command) : Session σ × Except EntryFailure Reply :=
  let answered (outcome : Session σ × Reply) : Session σ × Except EntryFailure Reply :=
    (outcome.1, .ok outcome.2)
  let thenEndTurn (outcome : Session σ × Reply) : Session σ × Except EntryFailure Reply :=
    (outcome.1.endTurn, .ok outcome.2)
  match c with
  | .move h => if s.play.finished then (s, .ok .alreadyComplete) else answered (s.move h.step)
  | .grab => thenEndTurn s.grab
  | .scan h => answered (s.scan h.step)
  | .searchAll => answered s.searchAll
  | .setAutoGrab on => (s.onRobot fun r => { r with autoGrab := on }, .ok (.autoGrab on))
  | .laserDirection h => thenEndTurn (s.fireDirection h.step)
  | .laserTile p => thenEndTurn (s.fireTile p)
  | .openDoor wide => thenEndTurn (s.turnDoor wide)
  | .skipLevel =>
    if s.level + 1 ≥ s.campaign.levels.length then (s, .ok .lastLevel)
    else s.enterLevel (s.level + 1) (.skipped (s.level + 2))
  | .gotoLevel n =>
    if 1 ≤ n ∧ n ≤ s.campaign.levels.length then s.enterLevel (n - 1) (.jumped n)
    else (s, .ok (.noSuchLevel n s.campaign.levels.length))
  | .println text => (s.onPlay fun p => { p with printed := p.printed ++ [text] }, .ok (.printed text))
  | .eprintln text =>
    (s.onPlay fun p => { p with errors := p.errors ++ [text] }, .ok (.errorPrinted text))
  | .panic message =>
    (s.onPlay fun p => { p with panicked := true }, .ok (.panicked (panicMessage message)))

/-- Executes a command: carries it out if the level allows it, completes the level if it is time, and
reports the answer. A command that fails reports nothing. -/
def execute (s : Session σ) (c : Command) : Session σ × Except EntryFailure Reply :=
  let answer (s : Session σ) (reply : Reply) : Session σ × Except EntryFailure Reply :=
    (s.report (.executed c.kind reply.text), .ok reply)
  let s := { s with collided := false }
  if c.kind ∉ s.availableFunctions then answer s .notAvailable
  else
    match s.perform c with
    | (s, .error failure) => (s, .error failure)
    | (s, .ok reply) =>
      -- After an encounter the level has just begun anew, and is not looked at for completion.
      if s.collided then answer s .collision else answer s.checkCompletion reply

/-- Runs commands in order, adding to the report, until one of them ends the batch. -/
def runCommands : List Command → Session σ → BatchReport → Session σ × Except EntryFailure BatchReport
  | [], s, r => (s, .ok r)
  | c :: rest, s, r =>
    -- Read before the command runs, so it speaks of the level that the command finds, which a skip or
    -- a jump leaves behind.
    let wasFinished := s.play.finished
    match s.execute c with
    | (s, .error failure) => (s, .error failure)
    | (s, .ok reply) =>
      let r := { r with executed := r.executed + 1 }
      if s.collided then (s, .ok ({ r with collided := true }.add Reply.collision.text))
      else
        let r := r.add reply.text
        let r :=
          if s.play.finished && !wasFinished then { r with completed := true }.add s.achievement else r
        if reply.haltsBatch then
          (s.report (.halted reply.text), .ok ({ r with halted := true }.add haltMessage))
        else if c.kind = .panic then (s, .ok r)
        else runCommands rest s r

def endBatch (s : Session σ) (result : String) : Session σ :=
  { s with lastResult := result, batches := s.batches + 1 }

def runBatch (s : Session σ) (commands : List Command) :
    Session σ × Except EntryFailure BatchReport :=
  let s := { s with events := [] }
  if commands.isEmpty then
    (s.endBatch noCallsMessage, .ok { commands := [], results := [noCallsMessage] })
  else
    match runCommands commands s { commands := commands } with
    | (s, .error failure) => (s, .error failure)
    | (s, .ok r) => (s.endBatch r.summary, .ok r)

/-- Runs a script as one batch. A script that cannot be read changes nothing. -/
def runScript (s : Session σ) (code : String) : Session σ × Except BatchFailure BatchReport :=
  match Script.read code.toList with
  | .error fault => (s, .error (.numeral fault))
  | .ok commands =>
    let (s, outcome) := s.runBatch commands
    (s, outcome.mapError .entry)

end Commands

end Session

end ScriptedRobot
