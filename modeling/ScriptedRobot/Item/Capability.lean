import ScriptedRobot.Log
import ScriptedRobot.Text.Line
import ScriptedRobot.Text.Numeral

/-!
# What an item gives

An item's file lists its capabilities in comment lines `// CAPABILITY: key = number` and its special
functions as function headers. Lines that make no sense are passed over. A level may override single
capabilities; what it does not mention stays as it is.
-/

namespace ScriptedRobot

open Text

structure Capabilities where
  /-- The scanner level it brings. -/
  scannerRange : Option Int := none
  /-- How far it extends the grabber. -/
  grabberBoost : Option Int := none
  /-- The credits it is worth. -/
  creditsValue : Option Int := some 1
  timeSlow : Option Int := none
  /-- The functions it unlocks, in the order of its file. -/
  functions : List String := []
  deriving DecidableEq, Repr

/-- Capabilities that a level sets, possibly to nothing, in place of those of the item. -/
structure CapabilityOverrides where
  scannerRange : Option (Option Int) := none
  grabberBoost : Option (Option Int) := none
  creditsValue : Option (Option Int) := none
  timeSlow : Option (Option Int) := none
  functions : Option (List String) := none
  deriving DecidableEq, Repr

namespace Capabilities

/-- The capabilities with those that are overridden replaced. -/
def override (c : Capabilities) (o : CapabilityOverrides) : Capabilities :=
  { scannerRange := o.scannerRange.getD c.scannerRange
    grabberBoost := o.grabberBoost.getD c.grabberBoost
    creditsValue := o.creditsValue.getD c.creditsValue
    timeSlow := o.timeSlow.getD c.timeSlow
    functions := o.functions.getD c.functions }

/-- Sets the capability that a key of an item file names. -/
def setter? (key : String) : Option (Int → Capabilities → Capabilities) :=
  match key with
  | "scanner_range" => some fun n c => { c with scannerRange := some n }
  | "grabber_boost" => some fun n c => { c with grabberBoost := some n }
  | "credits_value" => some fun n c => { c with creditsValue := some n }
  | "time_slow_duration" => some fun n c => { c with timeSlow := some n }
  | _ => none

def marker : List Char := "// CAPABILITY:".toList

/-- Applies what a capability line says behind its marker. A value that is no number is noted. -/
def applyLine (body : List Char) (c : Capabilities) : Capabilities × List Log.Entry :=
  match (body.splitOn '=').map trim with
  | [key, value] =>
    let key := String.ofList (key.map Char.toLower)
    match setter? key with
    | none => (c, [])
    | some set =>
      match Numeral.read value with
      | .ok n => (set n c, [])
      | .error _ =>
        let note := s!"Ignoring non-integer capability {key} = {String.ofList value}"
        (c, [⟨.debug, .items, note⟩])
  | _ => (c, [])

/-- What stands behind the first occurrence of a word in a text. -/
def behind? (word : List Char) : List Char → Option (List Char)
  | [] => if word = [] then some [] else none
  | c :: rest => if word <+: c :: rest then some ((c :: rest).drop word.length) else behind? word rest

/-- The name in a function header: from `fn` to the opening parenthesis. -/
def functionName? (line : List Char) : Option String := do
  let isHeader := "pub fn ".toList <+: line ∨ "fn ".toList <+: line
  if isHeader then
    let line := if "pub ".toList <+: line then line.drop 4 else line
    let rest ← behind? "fn ".toList line
    if '(' ∈ rest then
      let name := trim (rest.takeWhile (· ≠ '('))
      if name = [] then none else some (String.ofList name)
    else none
  else none

/-- Adds what one trimmed line of an item file says. -/
def addLine (line : List Char) (c : Capabilities) : Capabilities × List Log.Entry :=
  let (c, notes) :=
    if marker <+: line then applyLine (line.drop marker.length) c else (c, [])
  match functionName? line with
  | some name => ({ c with functions := c.functions ++ [name] }, notes)
  | none => (c, notes)

/-- Reads an item file, with what is worth noting about it. -/
def read (content : List Char) : Capabilities × List Log.Entry :=
  ((lines content).map trim).foldl (fun (c, notes) line =>
    let (c, more) := addLine line c
    (c, notes ++ more)) ({}, [])

def scanner : Capabilities :=
  { scannerRange := some 1, creditsValue := some 5, functions := ["scan"] }

def grabberUpgrade : Capabilities := { grabberBoost := some 1, creditsValue := some 3 }

def timeSlower : Capabilities :=
  { creditsValue := some 25, timeSlow := some 500, functions := ["time_slow"] }

/-- What an item without a file gives, by its name. -/
def standard (name : String) : Capabilities :=
  match name with
  | "scanner" => scanner
  | "grabber_upgrade" => grabberUpgrade
  | "time_slow" => timeSlower
  | _ => {}

end Capabilities

end ScriptedRobot
