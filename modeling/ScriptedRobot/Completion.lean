import ScriptedRobot.Text.Numeral

/-!
# When a level is complete

A level may carry a flag, `kind` or `kind:value`, that says what completes it. The flag is read once,
when the level is entered, and the rule then looks only at what the session has shown so far. A flag
that makes no sense is never satisfied. Levels without a flag fall back on `exploredEnough`.
-/

namespace ScriptedRobot

/-- What completes a level. -/
inductive CompletionRule where
  /-- Something, or exactly this text, was printed. -/
  | println (text : Option String)
  /-- Some error, or exactly this one, was printed. -/
  | error (text : Option String)
  | itemsCollected (count : Option Nat)
  /-- So many moves were made. -/
  | movesMade (count : Nat)
  /-- The script gave up. -/
  | panic
  | never
  deriving DecidableEq, Repr

/-- What a session shows to a rule. -/
structure CompletionSignals where
  /-- The texts printed on this level. -/
  printed : List String
  errors : List String
  panicked : Bool
  /-- How many different items are carried. -/
  carried : Int
  turns : Int
  deriving Repr

namespace CompletionRule

/-- Reads a count after the colon; a negative one or none makes the flag senseless. -/
def counted (build : Nat → CompletionRule) (value : List Char) : CompletionRule :=
  match Text.Numeral.read value with
  | .ok (.ofNat n) => build n
  | _ => never

/-- The rule of a flag with a value. -/
def ofValued (kind : String) (value : List Char) : CompletionRule :=
  match kind with
  | "println" | "println_exact" => println (some (String.ofList value))
  | "eprintln" | "error_exact" => error (some (String.ofList value))
  | "items_collected" => counted (fun n => itemsCollected (some n)) value
  | "moves_made" => counted movesMade value
  | _ => never

def ofBare (kind : String) : CompletionRule :=
  match kind with
  | "println" | "println_exact" => println none
  | "error" | "eprintln" | "error_exact" => error none
  | "panic" => panic
  | "items_collected" => itemsCollected none
  | _ => never

/-- The rule of a flag. The first colon parts the kind from the value. -/
def ofFlag (flag : String) : CompletionRule :=
  let kind := flag.toList.takeWhile (· ≠ ':')
  match flag.toList.dropWhile (· ≠ ':') with
  | [] => ofBare flag
  | _ :: value => ofValued (String.ofList kind) value

def instructions : CompletionRule → String
  | println none => "Use println!() to display output"
  | println (some text) => "Make your code print exactly: '" ++ text ++ "'"
  | error none => "Use eprintln!() to display an error message"
  | error (some text) => "Make your code output this error message: '" ++ text ++ "'"
  | itemsCollected none => "Collect all items on the level"
  | itemsCollected (some n) => s!"Collect {n} item(s) to complete this level"
  | movesMade n => s!"Make at least {n} move(s) to complete this level"
  | panic => "Trigger a panic in your code"
  | never => "Follow the level's requirements to complete it."

def defaultInstructions : String := "Collect all items and reach the goal to complete this level."

def satisfied (signals : CompletionSignals) : CompletionRule → Bool
  | println none => !signals.printed.isEmpty
  | println (some text) => signals.printed.contains text
  | error none => !signals.errors.isEmpty
  | error (some text) => signals.errors.contains text
  | itemsCollected none => signals.carried > 0
  | itemsCollected (some n) => signals.carried ≥ n
  | movesMade n => signals.turns ≥ n
  | panic => signals.panicked
  | never => false

end CompletionRule

/-- How far a level without a flag has been played. -/
structure Exploration where
  hasItems : Bool
  itemsLeft : Int
  knownWalkable : Int
  walkable : Int
  turns : Int
  /-- How many turns may be spent; zero sets no limit. -/
  maxTurns : Int
  deriving Repr

/-- Is a level without a flag complete? A spent turn budget always ends it. Otherwise a level with
items ends when none is left, and one without when every tile that can be walked on is known. -/
def Exploration.complete (e : Exploration) : Bool :=
  if e.maxTurns > 0 ∧ e.turns ≥ e.maxTurns then true
  else if e.hasItems then e.itemsLeft == 0
  else e.knownWalkable ≥ e.walkable

end ScriptedRobot
