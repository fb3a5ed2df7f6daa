import ScriptedRobot.Json
import ScriptedRobot.Position
import ScriptedRobot.Text.RecordNumeral

/-!
# Checking records

Records come in as JSON and are checked field by field. A check does not stop at the first problem:
`Checked` is an applicative that collects the issues of all its parts in order. Values are taken
liberally where nothing is lost: a whole number may come as a float or as text, a truth value as 0, 1
or a word.
-/

namespace ScriptedRobot.Schema

/-- A step on the way to a value inside a record. -/
inductive Step where
  | key (name : String)
  | index (i : Nat)
  deriving DecidableEq, Repr

/-- What is wrong with a value. -/
inductive Problem where
  | missing
  | unknownField
  | notString
  | notInteger
  | integerText
  | integerFraction
  | integerSize
  | notFinite
  | notBoolean
  | booleanValue
  | notList
  | notTuple
  | tooManyElements
  | notDictionary
  | notRecord
  | notOneOf
  | notAbove
  | notAtLeast
  | inconsistent (text : String)
  deriving DecidableEq, Repr

structure Issue where
  path : List Step
  problem : Problem
  deriving DecidableEq, Repr

/-- A value, or all that is wrong with what it should have come from. -/
inductive Checked (α : Type) where
  | valid (a : α)
  | invalid (issues : List Issue)

namespace Checked

/-- Applies a checked function to a checked value; the issues of both are collected. -/
def seq {α β : Type} (f : Checked (α → β)) (a : Checked α) : Checked β :=
  match f, a with
  | valid f, valid a => valid (f a)
  | valid _, invalid issues => invalid issues
  | invalid issues, valid _ => invalid issues
  | invalid issues, invalid more => invalid (issues ++ more)

instance : Applicative Checked where
  pure := valid
  seq f a := seq f (a ())

/-- Goes on with a value that has nothing wrong. -/
def andThen {α β : Type} (a : Checked α) (f : α → Checked β) : Checked β :=
  match a with
  | valid a => f a
  | invalid issues => invalid issues

def fault {α : Type} (problem : Problem) : Checked α := invalid [⟨[], problem⟩]

/-- The issues are those of something inside. -/
def within {α : Type} (step : Step) : Checked α → Checked α
  | valid a => valid a
  | invalid issues => invalid (issues.map fun issue => { issue with path := step :: issue.path })

def toExcept {α : Type} : Checked α → Except (List Issue) α
  | valid a => .ok a
  | invalid issues => .error issues

def toOption {α : Type} : Checked α → Option α
  | valid a => some a
  | invalid _ => none

end Checked

open Checked

/-- Checks a value of one kind. -/
abbrev Reader (α : Type) := Json → Checked α

def string : Reader String
  | .str s => valid s
  | _ => fault .notString

def integerOfText (s : String) : Checked Int :=
  match Text.RecordNumeral.read s.toList with
  | .ok n => valid n
  | .error .malformed => fault .integerText
  | .error .tooLong => fault .integerSize

/-- The floats that are taken for integers lie strictly between these bounds. -/
def integerBound : Nat := 0x8000000000000000

/-- An integer from a float without a fraction. -/
def integerOfFloat (x : Binary64) : Checked Int :=
  match x.truncate? with
  | none => fault .notFinite
  | some n =>
    if !x.isWhole then fault .integerFraction
    else if n.natAbs < integerBound then valid n
    else fault .integerSize

def integer : Reader Int
  | .int n => valid n
  | .bool b => valid (if b then 1 else 0)
  | .float x => integerOfFloat x
  | .str s => integerOfText s
  | _ => fault .notInteger

def integerAbove (bound : Int) : Reader { n : Int // bound < n } := fun j =>
  (integer j).andThen fun n => if h : bound < n then valid ⟨n, h⟩ else fault .notAbove

/-- An integer that is not negative. -/
def natural : Reader Nat := fun j =>
  (integer j).andThen fun n => if 0 ≤ n then valid n.toNat else fault .notAtLeast

/-- A truth value from zero or one. -/
def booleanOfInteger (n : Int) : Checked Bool :=
  if n = 0 then valid false else if n = 1 then valid true else fault .booleanValue

/-- The words for truth values. -/
def booleanWords : List (String × Bool) :=
  [("true", true), ("t", true), ("yes", true), ("y", true), ("on", true), ("1", true),
   ("false", false), ("f", false), ("no", false), ("n", false), ("off", false), ("0", false)]

def boolean : Reader Bool
  | .bool b => valid b
  | .int n => if -integerBound ≤ n ∧ n < integerBound then booleanOfInteger n else fault .notBoolean
  | .float x =>
    match integerOfFloat x with
    | valid n => booleanOfInteger n
    | invalid _ => fault .notBoolean
  | .str s =>
    match booleanWords.lookup (String.ofList (s.toList.map Char.toLower)) with
    | some b => valid b
    | none => fault .booleanValue
  | _ => fault .notBoolean

/-- One of some names. -/
def oneOf {α : Type} (ofName? : String → Option α) : Reader α
  | .str s =>
    match ofName? s with
    | some a => valid a
    | none => fault .notOneOf
  | _ => fault .notOneOf

/-- Null or a value. -/
def nullable {α : Type} (read : Reader α) : Reader (Option α)
  | .null => valid none
  | j => some <$> read j

/-- Checks the elements of a list from a place on. -/
def elementsFrom {α : Type} (read : Reader α) : Nat → List Json → Checked (List α)
  | _, [] => valid []
  | i, j :: rest => List.cons <$> (read j).within (.index i) <*> elementsFrom read (i + 1) rest

def list {α : Type} (read : Reader α) : Reader (List α)
  | .arr elements => elementsFrom read 0 elements
  | _ => fault .notList

def position : Reader Position
  | .arr [] =>
    invalid [⟨[.index 0], .missing⟩, ⟨[.index 1], .missing⟩]
  | .arr [x] =>
    Position.mk <$> (integer x).within (.index 0) <*> (fault .missing : Checked Int).within (.index 1)
  | .arr [x, y] => Position.mk <$> (integer x).within (.index 0) <*> (integer y).within (.index 1)
  | .arr _ => fault .tooManyElements
  | _ => fault .notTuple

def dictionary : Reader (List (String × Json))
  | .obj fields => valid fields
  | _ => fault .notDictionary

/-! ## Fields -/

/-- A field that must be there. -/
def required {α : Type} (fields : List (String × Json)) (key : String) (read : Reader α) : Checked α :=
  match fields.lookup key with
  | some j => (read j).within (.key key)
  | none => (fault .missing).within (.key key)

/-- A field with a default. -/
def optional {α : Type} (fields : List (String × Json)) (key : String) (read : Reader α)
    (default : α) : Checked α :=
  match fields.lookup key with
  | some j => (read j).within (.key key)
  | none => valid default

/-- A field that is noted only if it is there. -/
def noted {α : Type} (fields : List (String × Json)) (key : String) (read : Reader α) :
    Checked (Option α) :=
  match fields.lookup key with
  | some j => some <$> (read j).within (.key key)
  | none => valid none

/-- Complains about each field that is not among the known ones. -/
def noOthers (known : List String) (fields : List (String × Json)) : Checked Unit :=
  match fields.filter fun field => !known.contains field.1 with
  | [] => valid ()
  | others => invalid (others.map fun field => ⟨[.key field.1], .unknownField⟩)

/-- A record: an object whose fields are checked in order, and which has no others. -/
def record {α : Type} (known : List String) (read : List (String × Json) → Checked α) : Reader α
  | .obj fields => read fields <* noOthers known fields
  | _ => fault .notRecord

/-- A position as a record holds it. -/
def positionJson (p : Position) : Json := .arr [.int p.x, .int p.y]

def positionsJson (ps : List Position) : Json := .arr (ps.map positionJson)

end ScriptedRobot.Schema
