import ScriptedRobot.Path
import ScriptedRobot.Text.Numeral

/-!
# Command line options

The arguments of a command line are sorted into words first: switches, plain words and the separator
`--`, after which every argument is plain. A switch may be shortened as long as only one spelling starts
that way. Then the words are taken in order. The scripts are the first run of plain words; plain words
further on are too many.

The separator as the attached value of a switch, as in `--level=--`, leaves the value blank.
-/

namespace ScriptedRobot

/-- What is said about an option that takes a value. -/
inductive Choice (α : Type) where
  | absent
  /-- It is there, but its value is left blank. -/
  | blank
  | value (a : α)
  deriving DecidableEq, Repr

def Choice.toOption {α : Type} : Choice α → Option α
  | value a => some a
  | absent | blank => none

structure Options where
  scripts : List Path := []
  /-- The level to start on. -/
  level : Choice Int := .absent
  /-- The folder of the levels. -/
  levels : Choice Path := .absent
  seed : Choice Int := .absent
  replay : Choice Path := .absent
  latest : Bool := false
  /-- Where the folders of runs are. -/
  runs : Choice Path := .absent
  listLevels : Bool := false
  listFunctions : Bool := false
  /-- The least severity that is written to the log. -/
  severity : Choice String := .absent
  deriving Repr

inductive Switch where
  | help
  | level
  | levels
  | seed
  | replay
  | latest
  | runs
  | listLevels
  | listFunctions
  | severity
  deriving DecidableEq, Repr

namespace Switch

def spellings : List (String × Switch) :=
  [("-h", help), ("--help", help), ("--level", level), ("--levels-dir", levels), ("--seed", seed),
   ("--replay", replay), ("--latest", latest), ("--replay-dir", runs), ("--list-levels", listLevels),
   ("--list-functions", listFunctions), ("--log-level", severity)]

/-- The name of a switch: the last one of its spellings. -/
def name (s : Switch) : String :=
  ((spellings.filter fun entry => entry.2 == s).getLast?.map (·.1)).getD ""

def isLetter (spelling : String) : Bool := spelling.length = 2

def takesValue : Switch → Bool
  | help | latest | listLevels | listFunctions => false
  | _ => true

end Switch

inductive OptionsFault where
  | help
  | misuse
  deriving DecidableEq, Repr

/-- The argument after which every argument is plain. -/
def separator : String := "--"

/-- What an argument holds behind a switch. -/
inductive Attachment where
  | none
  /-- An equals sign and a value. -/
  | value (text : String)
  /-- More text, behind a switch of one letter. -/
  | more (text : String)
  deriving DecidableEq, Repr

/-- What is attached to a spelling of a switch. Behind a switch of one letter an equals sign says
nothing. -/
def Attachment.after (spelling : String) : Attachment → Attachment
  | value text => if Switch.isLetter spelling then more text else value text
  | attached => attached

inductive Word where
  | plain (text : String)
  | separator
  | switch (switch : Switch) (attached : Attachment)
  /-- Something like a switch. -/
  | unknown
  deriving DecidableEq, Repr

namespace Word

/-- Splits an argument at the first equals sign. -/
def splitValue (arg : String) : String × Attachment :=
  let name := arg.toList.takeWhile (· ≠ '=')
  match arg.toList.dropWhile (· ≠ '=') with
  | [] => (arg, .none)
  | _ :: value => (String.ofList name, .value (String.ofList value))

/-- Is this a negative number, which is no switch? A line feed may follow it. -/
def isNegativeNumber (arg : String) : Bool :=
  let isDigit (c : Char) : Bool := (Text.digitValue? c).isSome
  match arg.toList with
  | '-' :: rest =>
    let rest := if rest.getLast? = some '\n' then rest.dropLast else rest
    match rest.dropWhile isDigit with
    | [] => !rest.isEmpty
    | '.' :: fraction => !fraction.isEmpty && fraction.all isDigit
    | _ => false
  | _ => false

/-- The switches that an argument may be short for. -/
def candidates (arg : String) : List Word :=
  if ['-', '-'].isPrefixOf arg.toList then
    let (name, value) := splitValue arg
    (Switch.spellings.filter fun s => name.toList.isPrefixOf s.1.toList).map fun s =>
      switch s.2 value
  else
    (Switch.spellings.filter fun s => s.1.toList == arg.toList.take 2).map fun s =>
      switch s.2 (.more (String.ofList (arg.toList.drop 2)))

def ofArgument (arg : String) : Except OptionsFault Word :=
  let (name, value) := splitValue arg
  if arg.toList.head? ≠ some '-' || arg = "-" then .ok (plain arg)
  else
    match Switch.spellings.lookup arg with
    | some s => .ok (switch s .none)
    | none =>
      match Switch.spellings.lookup name with
      | some s => .ok (switch s (value.after name))
      | none =>
        match candidates arg with
        | [word] => .ok word
        | [] => .ok (if isNegativeNumber arg || arg.contains ' ' then plain arg else unknown)
        | _ => .error .misuse

def ofArguments : List String → Except OptionsFault (List Word)
  | [] => .ok []
  | arg :: rest =>
    if arg = ScriptedRobot.separator then .ok (separator :: rest.map plain)
    else do
      let word ← ofArgument arg
      return word :: (← ofArguments rest)

end Word

namespace Options

def withValue (o : Options) (s : Switch) (value : String) : Except OptionsFault Options :=
  match s with
  | .level =>
    match Text.Numeral.read value.toList with
    | .ok n => .ok { o with level := .value n }
    | .error _ => .error .misuse
  | .seed =>
    match Text.Numeral.readAnyBase value.toList with
    | .ok n => .ok { o with seed := .value n }
    | .error _ => .error .misuse
  | .levels => .ok { o with levels := .value (.ofString value) }
  | .replay => .ok { o with replay := .value (.ofString value) }
  | .runs => .ok { o with runs := .value (.ofString value) }
  | .severity => .ok { o with severity := .value value }
  | _ => .error .misuse

/-- Takes a switch whose value is left blank. -/
def withBlank (o : Options) : Switch → Except OptionsFault Options
  | .level => .ok { o with level := .blank }
  | .seed => .ok { o with seed := .blank }
  | .levels => .ok { o with levels := .blank }
  | .replay => .ok { o with replay := .blank }
  | .runs => .ok { o with runs := .blank }
  | .severity => .ok { o with severity := .blank }
  | _ => .error .misuse

/-- Takes a switch with what is behind its equals sign. -/
def withAttached (o : Options) (s : Switch) (text : String) : Except OptionsFault Options :=
  if text = separator then o.withBlank s else o.withValue s text

/-- Takes a switch without a value. -/
def withSwitch (o : Options) : Switch → Except OptionsFault Options
  | .latest => .ok { o with latest := true }
  | .listLevels => .ok { o with listLevels := true }
  | .listFunctions => .ok { o with listFunctions := true }
  | .help => .error .help
  | _ => .error .misuse

/-- Does the text behind the letter of the switch for help still ask for help? The letter may be
repeated. -/
def asksForHelp (more : String) : Bool := !more.isEmpty && more.toList.all (· == 'h')

/-- How far the run of plain words that are the scripts has come. -/
inductive ScriptRun where
  | before
  | inside
  | past
  deriving DecidableEq, Repr

/-- A word that is not plain ends the run, if it has begun. -/
def ScriptRun.close : ScriptRun → ScriptRun
  | before => before
  | inside | past => past

/-- Takes words in order. `excess` says whether something has been met that is too much. -/
def take : List Word → ScriptRun → Bool → Options → Except OptionsFault Options
  | [], _, excess, o => if excess then .error .misuse else .ok o
  | .unknown :: rest, run, _, o => take rest run.close true o
  | .plain text :: rest, run, excess, o =>
    if run = .past then take rest run true o
    else take rest .inside excess { o with scripts := o.scripts ++ [.ofString text] }
  | .separator :: rest, run, excess, o =>
    if run = .past then take rest run true o else take rest .inside excess o
  | .switch s (.value text) :: rest, run, excess, o => do
    take rest run.close excess (← o.withAttached s text)
  | .switch _ (.more text) :: _, _, _, _ =>
    .error (if asksForHelp text then .help else .misuse)
  | .switch s .none :: rest, run, excess, o =>
    if s.takesValue then
      match rest with
      | .plain value :: rest => do take rest run.close excess (← o.withValue s value)
      | _ => .error .misuse
    else do take rest run.close excess (← o.withSwitch s)

def ofArguments (args : List String) : Except OptionsFault Options := do
  take (← Word.ofArguments args) .before false {}

end Options

end ScriptedRobot
