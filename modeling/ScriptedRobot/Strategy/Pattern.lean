import ScriptedRobot.Log
import ScriptedRobot.Resource
import ScriptedRobot.Strategy
import ScriptedRobot.Text.Blank
import ScriptedRobot.Text.Quoted

/-!
# Movement patterns

A level names an enemy's strategy by a pattern: the name of a built-in kind, or `file:` and a path.
A pattern file names a kind in a comment `// MOVEMENT_PATTERN: kind` and is then an alias of it,
registered under a key of its enemy. An enemy without a usable pattern bounces along its axis.
-/

namespace ScriptedRobot

open Text

/-- The axis along which an enemy bounces when nothing else is said. -/
inductive Axis where
  | horizontal
  | vertical
  deriving DecidableEq, Repr

/-- The kinds of strategy that a pattern can name. -/
inductive StrategyKind where
  | horizontal
  | vertical
  | diagonal
  | random
  | circular
  | spiral
  | chase
  | guard
  deriving DecidableEq, Repr

namespace StrategyKind

def all : List StrategyKind :=
  [horizontal, vertical, diagonal, random, circular, spiral, chase, guard]

def name : StrategyKind → String
  | horizontal => "horizontal"
  | vertical => "vertical"
  | diagonal => "diagonal"
  | random => "random"
  | circular => "circular"
  | spiral => "spiral"
  | chase => "chase"
  | guard => "guard"

def ofName? (name : String) : Option StrategyKind := all.find? fun kind => kind.name == name

/-- Can a pattern file name this kind? The kinds that an axis already stands for are left out. -/
def inFiles (kind : StrategyKind) : Bool := kind != horizontal && kind != vertical

/-- A fresh strategy of a kind. -/
def start (kind : StrategyKind) (positive : Bool) : Strategy :=
  match kind with
  | horizontal => .bounce ⟨1, 0⟩ positive
  | vertical => .bounce ⟨0, 1⟩ positive
  | diagonal => .bounce ⟨1, 1⟩ positive
  | random => .random
  | circular => .circular 0
  | spiral => .spiral 0 1 0
  | chase => .chase false
  | guard => .guard 0 none none

end StrategyKind

namespace Axis

def kind : Axis → StrategyKind
  | horizontal => .horizontal
  | vertical => .vertical

def name (a : Axis) : String := a.kind.name

def ofName? (name : String) : Option Axis :=
  [horizontal, vertical].find? fun axis => axis.name == name

end Axis

namespace Pattern

/-- The characters of the word that names a kind. -/
def isKindChar (c : Char) : Bool := c.isAlpha || c == '_'

/-- What follows a word at the front of a text, after blanks. -/
def afterBlanks? (word : String) (cs : List Char) : Option (List Char) :=
  let rest := trimLeft cs
  if word.toList <+: rest then some (rest.drop word.length) else none

/-- The word of a sentinel that starts at the front of a text, and what follows it. The blanks
within a sentinel may run over line ends. -/
def sentinelAt? (cs : List Char) : Option (List Char × List Char) := do
  let rest ← afterBlanks? "//" cs
  let rest ← afterBlanks? "MOVEMENT_PATTERN:" rest
  let rest := trimLeft rest
  let word := rest.takeWhile isKindChar
  if word = [] then none else some (word, rest.dropWhile isKindChar)

/-- The kind that the word of a sentinel names, in letters of any case. -/
def aliasable? (word : List Char) : Option StrategyKind :=
  (StrategyKind.ofName? (String.ofList (word.map Char.toLower))).filter StrategyKind.inFiles

theorem length_trimLeft_le (cs : List Char) : (trimLeft cs).length ≤ cs.length :=
  (List.dropWhile_sublist _).length_le

theorem length_afterBlanks? {word : String} {cs rest : List Char}
    (h : afterBlanks? word cs = some rest) : rest.length ≤ cs.length := by
  simp only [afterBlanks?] at h
  have := length_trimLeft_le cs
  split at h
  · cases h
    simp only [List.length_drop]
    omega
  · cases h

/-- What follows a sentinel is shorter than the text. -/
theorem length_sentinelAt? {cs word rest : List Char} (h : sentinelAt? cs = some (word, rest)) :
    rest.length < cs.length := by
  simp only [sentinelAt?, Option.bind_eq_bind, Option.bind_eq_some_iff] at h
  obtain ⟨r₁, h₁, r₂, h₂, h₃⟩ := h
  split at h₃
  · cases h₃
  · rename_i nonempty
    cases h₃
    have := length_afterBlanks? h₁
    have := length_afterBlanks? h₂
    have := length_trimLeft_le r₂
    have split := congrArg List.length (List.takeWhile_append_dropWhile (p := isKindChar) (l := trimLeft r₂))
    rw [List.length_append] at split
    have := List.length_pos_iff.2 nonempty
    omega

/-- The kind that a pattern file names: that of the first sentinel with a kind that files can name.
Sentinels start at the front of a line. -/
def kindIn? (lineStart : Bool) (cs : List Char) : Option StrategyKind :=
  match cs with
  | [] => none
  | c :: rest =>
    match _found : if lineStart then sentinelAt? (c :: rest) else none with
    | some (word, after) =>
      match aliasable? word with
      | some kind => some kind
      | none => kindIn? false after
    | none => kindIn? (c == '\n') rest
termination_by cs.length
decreasing_by
  · cases lineStart with
    | true => exact length_sentinelAt? (by simpa using _found)
    | false => cases _found
  · simp

def kindOf? (content : List Char) : Option StrategyKind := kindIn? true content

end Pattern

/-- The kinds that pattern files stand for, by key. -/
structure PatternRegistry where
  /-- The keys, each once, with their kinds. -/
  entries : List (String × StrategyKind) := []
  deriving DecidableEq, Repr

namespace PatternRegistry

def get? (r : PatternRegistry) (key : String) : Option StrategyKind := r.entries.lookup key

/-- Registers a kind under a key, in place of what was there. -/
def register (r : PatternRegistry) (key : String) (kind : StrategyKind) : PatternRegistry :=
  ⟨(key, kind) :: r.entries.filter fun e => e.1 != key⟩

def unknownKindMessage (name : String) : String :=
  "Unknown movement kind " ++ Text.quotedString name

/-- Registers a kind by its name, unless there is none of that name. -/
def registerName (r : PatternRegistry) (key name : String) : Except String PatternRegistry :=
  match StrategyKind.ofName? name with
  | some kind => .ok (r.register key kind)
  | none => .error (unknownKindMessage name)

/-- Registers what a pattern file names, and says whether it named something. A file that cannot be
had, or that names nothing, leaves a note. -/
def load (r : PatternRegistry) (loader : Loader) (key : String) (p : Path) :
    Log.Noting ReadFailure (Bool × PatternRegistry) :=
  match loader p with
  | .error (.unavailable reason) => do
    Log.note [⟨.warning, .patterns, s!"Failed to load movement pattern from {p.text}: {reason}"⟩]
    return (false, r)
  | .error failure => throw failure
  | .ok content =>
    match Pattern.kindOf? content.toList with
    | some kind => return (true, r.register key kind)
    | none => do
      Log.note [⟨.warning, .patterns, s!"No MOVEMENT_PATTERN sentinel in {p.text}"⟩]
      return (false, r)

/-- The key of an enemy's pattern file. -/
def key (index : Int) : String := s!"custom_{index}"

/-- How a pattern starts that names a file. -/
def filePrefix : String := "file:"

/-- The path in a pattern that names a file. -/
def filePath? (pattern : String) : Option Path :=
  if filePrefix.toList <+: pattern.toList then
    some (.ofString (String.ofList (pattern.toList.drop filePrefix.length)))
  else none

/-- The kind that a pattern names, with a note about one that names nothing. -/
def kindFor (r : PatternRegistry) (index : Int) (pattern : Option String) :
    Option StrategyKind × List Log.Entry :=
  match pattern with
  | none => (none, [])
  | some pattern =>
    if (filePath? pattern).isSome then (r.get? (key index), [])
    else
      match StrategyKind.ofName? pattern with
      | some kind => (some kind, [])
      | none =>
        let note := s!"Unknown movement pattern {Text.quotedString pattern} for enemy {index}"
        (none, [⟨.warning, .patterns, note⟩])

/-- The fresh strategy of an enemy. -/
def resolve (r : PatternRegistry) (index : Int) (pattern : Option String) (axis : Axis)
    (positive : Bool) : Strategy × List Log.Entry :=
  let (kind, notes) := r.kindFor index pattern
  ((kind.getD axis.kind).start positive, notes)

end PatternRegistry

end ScriptedRobot
