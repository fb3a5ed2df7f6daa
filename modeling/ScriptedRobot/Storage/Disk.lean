import ScriptedRobot.Storage

/-!
# Disks

A file system as a value. Every file and directory is listed under its place, the names that lead to it
from the root. A path is followed name by name from the current directory, and each name but the last
must lead to a directory.
-/

namespace ScriptedRobot

/-- What is at a place. -/
inductive FileContent where
  | file (bytes : ByteArray)
  | directory

/-- The names that lead to a file or a directory from the root. -/
abbrev Place := List String

/-- A file system. -/
structure Disk where
  here : Place
  /-- What is at which place; the root is always there. -/
  entries : List (Place × FileContent) := []

namespace Disk

def content? (d : Disk) (spot : Place) : Option FileContent :=
  if spot = [] then some .directory else d.entries.lookup spot

def longestName : Nat := 255

def longestPath : Nat := 4095

/-- Goes from a place to a name. -/
def step (d : Disk) (p : Path) (spot : Place) (name : String) : Except StorageFault Place :=
  match d.content? spot with
  | none => .error (.notFound p)
  | some (.file _) => .error (.notDirectory p)
  | some .directory =>
    if name = ".." then .ok spot.dropLast
    else if name.utf8ByteSize > longestName then .error (.tooLong p)
    else .ok (spot ++ [name])

/-- The place that a path leads to. There need not be anything. -/
def place (d : Disk) (p : Path) : Except StorageFault Place :=
  if p.text.toList.contains '\x00' then .error .nullInPath
  else if p.text.utf8ByteSize > longestPath then .error (.tooLong p)
  else p.names.foldlM (d.step p) (if p.isAbsolute then [] else d.here)

/-- What is at a path. -/
def find (d : Disk) (p : Path) : Except StorageFault FileContent := do
  let spot ← d.place p
  match d.content? spot with
  | some content => return content
  | none => throw (.notFound p)

def kind (d : Disk) (p : Path) : Except StorageFault FileKind :=
  (d.find p).map fun
    | .file _ => .file
    | .directory => .directory

def bytes (d : Disk) (p : Path) : Except StorageFault ByteArray := do
  match ← d.find p with
  | .file bytes => return bytes
  | .directory => throw (.isDirectory p)

def names (d : Disk) (p : Path) : Except StorageFault (List String) := do
  let spot ← d.place p
  match d.content? spot with
  | none => throw (.notFound p)
  | some (.file _) => throw (.notDirectory p)
  | some .directory =>
    return d.entries.filterMap fun entry =>
      if entry.1.dropLast = spot then entry.1.getLast? else none

def put (d : Disk) (spot : Place) (content : FileContent) : Disk :=
  { d with entries := replace d.entries }
where
  replace : List (Place × FileContent) → List (Place × FileContent)
    | [] => [(spot, content)]
    | entry :: rest => if entry.1 = spot then (spot, content) :: rest else entry :: replace rest

/-- Adds bytes at the end of a file. -/
def append (d : Disk) (p : Path) (bytes : ByteArray) : Except StorageFault Disk := do
  let spot ← d.place p
  match d.content? spot with
  | some .directory => throw (.isDirectory p)
  | some (.file before) => return d.put spot (.file (before ++ bytes))
  | none => return d.put spot (.file bytes)

def makeDirectory (d : Disk) (p : Path) : Except StorageFault Disk := do
  let spot ← d.place p
  match d.content? spot with
  | some _ => throw (.alreadyThere p)
  | none => return d.put spot .directory

def herePath (d : Disk) : Path := ⟨"/", d.here⟩

/-- A step that may change the disk. -/
def run (step : Disk → Except StorageFault Disk) (d : Disk) : Except StorageFault Unit × Disk :=
  match step d with
  | .ok d => (.ok (), d)
  | .error fault => (.error fault, d)

end Disk

instance : Storage (StateM Disk) where
  here d := (d.herePath, d)
  kind p d := (d.kind p, d)
  bytes p d := (d.bytes p, d)
  append p bytes := Disk.run fun d => d.append p bytes
  names p d := (d.names p, d)
  makeDirectory p := Disk.run fun d => d.makeDirectory p

end ScriptedRobot
