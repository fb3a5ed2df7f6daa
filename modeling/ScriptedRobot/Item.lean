import ScriptedRobot.Item.Capability
import ScriptedRobot.Position
import ScriptedRobot.Resource

/-!
# Items

Items lie on the tiles of a level, several on one tile if the level says so, and are handed out once
each, in the order in which they were placed.
-/

namespace ScriptedRobot

structure ItemSpec where
  name : String
  /-- Where it lies; an item without a place is left out. -/
  position : Option Position := none
  /-- The file that lists its capabilities. -/
  file : Option String := none
  /-- The capabilities that the level sets itself. -/
  overrides : CapabilityOverrides := {}
  deriving DecidableEq, Repr

structure Item where
  name : String
  /-- Where it lies, or lay. -/
  position : Position
  capabilities : Capabilities
  collected : Bool := false
  deriving DecidableEq, Repr

namespace Item

def scannerName : String := "scanner"

/-- Reads the capabilities in an item's file. A file that cannot be had counts as an empty one. -/
def loadCapabilities (load : Loader) (p : Path) : Log.Noting ReadFailure Capabilities :=
  match load p with
  | .ok content => do
    let (capabilities, notes) := Capabilities.read content.toList
    Log.note notes
    return capabilities
  | .error (.unavailable reason) => do
    Log.note [⟨.warning, .items, s!"Failed to read item file {p.text}: {reason}"⟩]
    return {}
  | .error failure => throw failure

/-- What an item gives before its level has its say: what its file says, or else what is usual for
its name. -/
def baseCapabilities (load : Loader) (root : Option Path) (spec : ItemSpec) :
    Log.Noting ReadFailure Capabilities :=
  match spec.file with
  | none | some "" => return Capabilities.standard spec.name
  | some file => loadCapabilities load (resourcePath root (.ofString file))

/-- Makes an item that lies on a tile from its description. -/
def build (load : Loader) (root : Option Path) (spec : ItemSpec) (place : Position) :
    Log.Noting ReadFailure Item := do
  let base ← baseCapabilities load root spec
  return ⟨spec.name, place, base.override spec.overrides, false⟩

def liesAt (p : Position) (i : Item) : Bool := i.position == p && !i.collected

end Item

/-- The items of a level in the order in which they were placed. -/
structure ItemStore where
  items : List Item := []
  deriving DecidableEq, Repr

namespace ItemStore

def add (s : ItemStore) (i : Item) : ItemStore := ⟨s.items ++ [i]⟩

/-- The item that would be collected next on a tile. -/
def itemAt? (s : ItemStore) (p : Position) : Option Item := s.items.find? (Item.liesAt p)

/-- Marks the first item that still lies on a tile as collected. -/
def collectFirst (p : Position) : List Item → List Item
  | [] => []
  | i :: rest =>
    if i.liesAt p then { i with collected := true } :: rest else i :: collectFirst p rest

/-- Collects the next item on a tile. -/
def collectAt (s : ItemStore) (p : Position) : Option Item × ItemStore :=
  match s.itemAt? p with
  | none => (none, s)
  | some i => (some { i with collected := true }, ⟨collectFirst p s.items⟩)

def active (s : ItemStore) : List Item := s.items.filter fun i => !i.collected

/-- The names of the collected items, each once. -/
def collectedNames (s : ItemStore) : List String :=
  ((s.items.filter (·.collected)).map (·.name)).eraseDups

end ItemStore

end ScriptedRobot
