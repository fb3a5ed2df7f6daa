import ScriptedRobot.Command
import ScriptedRobot.Text.Line
import ScriptedRobot.Text.Numeral

/-!
# Reading scripts

Scripts are read leniently. Each line that is neither blank nor a comment yields at most one
command: the leftmost call on it whose arguments make sense. Everything else is passed over, so the
only way to fail is a numeral that is too long to be read.
-/

namespace ScriptedRobot.Script

open Text

/-- The names that can be called, longer spellings before the shorter ones they begin with. -/
def callNames : List (String × CommandKind) :=
  [("println!", .println), ("eprintln!", .eprintln), ("panic!", .panic), ("println", .println),
   ("eprintln", .eprintln), ("panic", .panic), ("search_all", .searchAll),
   ("set_auto_grab", .setAutoGrab), ("laser_direction", .laserDirection),
   ("laser_tile", .laserTile), ("open_door", .openDoor), ("skip_level", .skipLevel),
   ("goto_level", .gotoLevel), ("move", .move), ("grab", .grab), ("scan", .scan)]

/-- The characters of identifiers. A call does not start right after one. -/
def isWordChar (c : Char) : Bool := c.isAlphanum || c == '_'

/-- What follows a word at the front of a text. -/
def after? (word cs : List Char) : Option (List Char) :=
  if word <+: cs then some (cs.drop word.length) else none

/-- What follows one given character at the front of a text. -/
def afterChar? (c : Char) : List Char → Option (List Char)
  | [] => none
  | d :: rest => if d = c then some rest else none

/-- The call that starts at the front of a text, with what follows its opening parenthesis. -/
def callAt? (cs : List Char) : Option (CommandKind × List Char) :=
  callNames.findSome? fun (name, kind) => do
    let rest ← after? name.toList cs
    let rest ← afterChar? '(' (trimLeft rest)
    return (kind, rest)

/-- The first call in a text, with what follows its opening parenthesis. `afterWord` says whether
the text continues an identifier. -/
def nextCall? (afterWord : Bool) : List Char → Option (CommandKind × List Char)
  | [] => none
  | c :: rest =>
    match if afterWord then none else callAt? (c :: rest) with
    | some call => some call
    | none => nextCall? (isWordChar c) rest

/-- The text in front of the first closing parenthesis, if there is one. -/
def argument? (cs : List Char) : Option (List Char) :=
  if ')' ∈ cs then some (cs.takeWhile (· ≠ ')')) else none

/-- A token without the blanks around it and without one pair of equal quotes around it. -/
def unquote (token : List Char) : List Char :=
  let token := trim token
  match token with
  | q :: rest =>
    if (q = '"' ∨ q = '\'') ∧ rest.getLast? = some q then trim rest.dropLast else token
  | [] => []

/-- Reads one of some words, in letters of any case, quoted or not. -/
def wordOf? {α : Type} (words : List (String × α)) (token : List Char) : Option α :=
  words.lookup (String.ofList ((unquote token).map Char.toLower))

def heading? (token : List Char) : Option Heading :=
  wordOf? (Heading.all.map fun h => (h.word, h)) token

def flag? (token : List Char) : Option Bool :=
  wordOf? [("true", true), ("false", false)] token

/-- What a backslash and a character stand for in a text literal. -/
def unescape : Char → Char
  | 'n' => '\n'
  | 't' => '\t'
  | c => c

/-- The rest of a text literal after its opening quote: its text and what follows the closing
quote. A backslash escapes any character but a line feed. -/
def literalBody? : List Char → Option (List Char × List Char)
  | [] => none
  | '"' :: rest => some ([], rest)
  | ['\\'] => none
  | '\\' :: c :: rest =>
    if c = '\n' then none else (literalBody? rest).map fun (text, rest) => (unescape c :: text, rest)
  | c :: rest => (literalBody? rest).map fun (text, rest) => (c :: text, rest)

/-- A text literal at the front of a text, after blanks. -/
def literal? (cs : List Char) : Option (List Char × List Char) := do
  let rest ← afterChar? '"' (trimLeft cs)
  literalBody? rest

/-- Reads the argument of a call that prints: a literal with a closing parenthesis somewhere after
it, or nothing at all. -/
def printed? (cs : List Char) : Option String :=
  match literal? cs with
  | some (text, rest) => if ')' ∈ rest then some (String.ofList text) else none
  | none => (argument? cs).bind fun inside => if allBlank inside then some "" else none

/-- Splits a text after its leading digits, of which there must be one. -/
def digits? (cs : List Char) : Option (List Char × List Char) :=
  match cs.takeWhile isDigit with
  | [] => none
  | ds => some (ds, cs.dropWhile isDigit)

/-- Splits a text after a whole number with an optional minus sign. -/
def integer? (cs : List Char) : Option (List Char × List Char) :=
  match cs with
  | '-' :: rest => (digits? rest).map fun (ds, rest) => ('-' :: ds, rest)
  | cs => digits? cs

/-- Two whole numbers with a comma between them, as their numerals. -/
def integerPair? (cs : List Char) : Option (List Char × List Char) := do
  let (first, rest) ← integer? (trimLeft cs)
  let rest ← afterChar? ',' (trimLeft rest)
  let (second, rest) ← integer? (trimLeft rest)
  if allBlank rest then some (first, second) else none

/-- One number without a sign, as its numeral. -/
def natural? (cs : List Char) : Option (List Char) := do
  let (ds, rest) ← digits? (trimLeft cs)
  if allBlank rest then some ds else none

/-- Reads the argument of a call from the text up to its closing parenthesis. -/
def commandOf (kind : CommandKind) (arg : List Char) : Except NumeralFault (Option Command) :=
  let plain (command : Command) := .ok (if allBlank arg then some command else none)
  match kind with
  | .move => .ok ((heading? arg).map .move)
  | .scan => .ok ((heading? arg).map .scan)
  | .laserDirection => .ok ((heading? arg).map .laserDirection)
  | .setAutoGrab => .ok ((flag? arg).map .setAutoGrab)
  | .openDoor => .ok ((flag? arg).map .openDoor)
  | .grab => plain .grab
  | .searchAll => plain .searchAll
  | .skipLevel => plain .skipLevel
  | .laserTile =>
    match integerPair? arg with
    | none => .ok none
    | some (first, second) => do
      let x ← Numeral.read first
      let y ← Numeral.read second
      return some (.laserTile ⟨x, y⟩)
  | .gotoLevel =>
    match natural? arg with
    | none => .ok none
    | some ds => do return some (.gotoLevel (← Numeral.read ds))
  | .println | .eprintln | .panic => .ok none

/-- Reads the arguments of a call from everything after its opening parenthesis. -/
def command? (kind : CommandKind) (rest : List Char) : Except NumeralFault (Option Command) :=
  match kind with
  | .println => .ok ((printed? rest).map .println)
  | .eprintln => .ok ((printed? rest).map .eprintln)
  | .panic => .ok ((printed? rest).map fun text => .panic (if text = "" then none else some text))
  | kind =>
    match argument? rest with
    | none => .ok none
    | some arg => commandOf kind arg

/-- What follows a word is no longer than the text. -/
theorem length_after? {word cs rest : List Char} (h : after? word cs = some rest) :
    rest.length ≤ cs.length := by
  unfold after? at h
  split at h
  · cases h; simp
  · cases h

/-- What follows a character is shorter than the text. -/
theorem length_afterChar? {c : Char} {cs rest : List Char} (h : afterChar? c cs = some rest) :
    rest.length < cs.length := by
  cases cs with
  | nil => cases h
  | cons d cs =>
    simp only [afterChar?] at h
    split at h
    · cases h; simp
    · cases h

/-- What follows a call is shorter than the text. -/
theorem length_callAt? {cs rest : List Char} {kind : CommandKind}
    (h : callAt? cs = some (kind, rest)) : rest.length < cs.length := by
  obtain ⟨⟨name, k⟩, -, found⟩ := List.exists_of_findSome?_eq_some h
  simp only [Option.bind_eq_bind, Option.bind_eq_some_iff] at found
  obtain ⟨tail, tailAfter, rest', restAfter, eq⟩ := found
  cases eq
  have := length_after? tailAfter
  have := length_afterChar? restAfter
  have : (trimLeft tail).length ≤ tail.length := (List.dropWhile_sublist _).length_le
  omega

/-- What follows the first call is shorter than the text. -/
theorem length_nextCall? {afterWord : Bool} {cs rest : List Char} {kind : CommandKind}
    (h : nextCall? afterWord cs = some (kind, rest)) : rest.length < cs.length := by
  induction cs generalizing afterWord with
  | nil => cases h
  | cons c cs ih =>
    simp only [nextCall?] at h
    split at h
    · rename_i call found
      cases h
      cases afterWord with
      | true => cases found
      | false => exact length_callAt? (by simpa using found)
    · exact Nat.lt_succ_of_lt (ih h)

/-- Reads one line: the leftmost call whose arguments make sense. The search for calls goes on
behind the opening parenthesis of one whose arguments do not. -/
def readLine (line : List Char) : Except NumeralFault (Option Command) :=
  match _found : nextCall? false line with
  | none => .ok none
  | some (kind, rest) => do
    match ← command? kind rest with
    | some command => return some command
    | none => readLine rest
termination_by line.length
decreasing_by exact length_nextCall? _found

/-- Is this trimmed line to be read at all? -/
def isCode (line : List Char) : Bool := line ≠ [] && !decide (['/', '/'] <+: line)

/-- The commands of a script in order. -/
def read (code : List Char) : Except NumeralFault (List Command) := do
  let found ← (((lines code).map trim).filter isCode).mapM readLine
  return found.reduceOption

end ScriptedRobot.Script
