import ScriptedRobot.Session.Entry
import ScriptedRobot.Session.Event
import ScriptedRobot.Session.Reply

/-!
# Sessions

A session is one player's way through a campaign: the level being played, the credits, what the
current batch has reported so far, and the source of random numbers.
-/

namespace ScriptedRobot

/-- A session. -/
structure Session (σ : Type) where
  campaign : Campaign
  rng : σ
  play : Play
  credits : Int := 0
  batches : Nat := 0
  lastResult : String := ""
  /-- Did the robot and an enemy meet during the last command? -/
  collided : Bool := false
  /-- What has happened since the current batch started. -/
  events : List Event := []
  log : List Log.Entry := []

/-- Why a session cannot start. -/
inductive StartFailure where
  | noLevels
  | entry (failure : EntryFailure)
  deriving DecidableEq, Repr

namespace Session

variable {σ : Type}

def level (s : Session σ) : Int := s.play.entry.index

def spec (s : Session σ) : LevelSpec := s.play.entry.spec

/-- Are there enemies on the current level, as far as its index goes? -/
def hasEnemies (s : Session σ) : Bool := s.level ≥ enemyLevelIndex

def onPlay (s : Session σ) (f : Play → Play) : Session σ := { s with play := f s.play }

def onBoard (s : Session σ) (f : Board → Board) : Session σ :=
  s.onPlay fun p => { p with board := f p.board }

def onRobot (s : Session σ) (f : Robot → Robot) : Session σ :=
  s.onPlay fun p => { p with robot := f p.robot }

def report (s : Session σ) (e : Event) : Session σ := { s with events := s.events ++ [e] }

def note (s : Session σ) (entries : List Log.Entry) : Session σ :=
  { s with log := s.log ++ entries }

/-- The calls that the level allows now. -/
def availableFunctions (s : Session σ) : List CommandKind :=
  s.play.robot.availableFunctions s.level

def instructions (s : Session σ) : String :=
  match s.spec.texts.completionMessage with
  | some text => if text = "" then ruleInstructions else text
  | none => ruleInstructions
where
  ruleInstructions : String :=
    match s.play.rule with
    | none => CompletionRule.defaultInstructions
    | some rule => rule.instructions

/-! ## Completion -/

/-- What the session shows to a completion rule. -/
def signals (s : Session σ) : CompletionSignals :=
  { printed := s.play.printed
    errors := s.play.errors
    panicked := s.play.panicked
    carried := s.play.robot.inventory.size
    turns := s.play.turns }

/-- How far a level without a rule has been played. -/
def exploration (s : Session σ) : Exploration :=
  { hasItems := !s.play.items.items.isEmpty
    itemsLeft := s.play.items.active.length
    knownWalkable := s.play.board.knownWalkable
    walkable := s.play.board.walkableCount
    turns := s.play.turns
    maxTurns := s.spec.maxTurns }

/-- Is what completes the level the case now? -/
def isComplete (s : Session σ) : Bool :=
  match s.play.rule with
  | some rule => rule.satisfied s.signals
  | none => s.exploration.complete

/-- Completes the level: every discovery is worth a credit. -/
def finish (s : Session σ) : Session σ :=
  let s := s.onPlay fun p => { p with finished := true }
  -- A tile that a grab made known has paid its income already; one that a scan did pays only here.
  let s := { s with credits := s.credits + s.play.discovered }
  (s.report (.levelComplete s.level s.spec.name)).note
    [⟨.info, .session, s!"Level {s.level + 1} complete"⟩]

/-- Completes the level if it is time. -/
def checkCompletion (s : Session σ) : Session σ :=
  if s.play.finished then s else if s.isComplete then s.finish else s

/-! ## Levels -/

section Levels

variable [WordSource σ]

/-- Enters the current level again as it was entered: with the same robot and the same credits. -/
def reload (s : Session σ) : Session σ :=
  let (play, g, notes) := s.play.entry.begin s.rng
  { s with play := play, rng := g, credits := s.play.entry.credits }.note notes

/-- Replaces where the texts of resources come from. What the current level is entered again with is
read anew. -/
def withLoader (s : Session σ) (load : Loader) : Session σ :=
  let campaign := { s.campaign with loader := load }
  { s with campaign := campaign }.onPlay fun p => { p with entry := campaign.refresh p.entry }

/-- Enters a level with the progress so far. If that fails, only the source of random numbers and the
log have changed. -/
def load (s : Session σ) (index : Int) : Session σ × Except EntryFailure Unit :=
  match s.campaign.enter index (some s.play.robot) s.credits s.rng with
  | (.error failure, g, notes) => ({ s with rng := g }.note notes, .error failure)
  | (.ok play, g, notes) => ({ s with play := play, rng := g }.note notes, .ok ())

/-- Starts a session, with what is noted if it cannot start. -/
def start (campaign : Campaign) (g : σ) (index : Int) :
    Except StartFailure (Session σ) × List Log.Entry :=
  if campaign.levels.isEmpty then (.error .noLevels, [])
  else
    match campaign.enter index none 0 g with
    | (.error failure, _, notes) => (.error (.entry failure), notes)
    | (.ok play, g, notes) => (.ok { campaign := campaign, rng := g, play := play, log := notes }, notes)

end Levels

end Session

end ScriptedRobot
