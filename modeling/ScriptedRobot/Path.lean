/-!
# Paths

A path is a sequence of names behind an optional root. Repeated slashes and the name `.` say nothing
and are left out; `..` is kept. A path that starts with exactly two slashes has a root of its own.
-/

namespace ScriptedRobot

structure Path where
  /-- The root: nothing for a relative path, otherwise one slash or two. -/
  root : String
  names : List String
  deriving DecidableEq, Repr

namespace Path

def rootOf : List Char → String
  | ['/', '/'] => "//"
  | '/' :: '/' :: c :: _ => if c = '/' then "/" else "//"
  | '/' :: _ => "/"
  | _ => ""

def ofString (s : String) : Path :=
  let names := (s.toList.splitOn '/').map String.ofList
  ⟨rootOf s.toList, names.filter fun name => name != "" && name != "."⟩

/-- A path as text; one without root and names is the current directory. -/
def text (p : Path) : String :=
  if p.root = "" ∧ p.names = [] then "." else p.root ++ "/".intercalate p.names

instance : ToString Path := ⟨text⟩

def isAbsolute (p : Path) : Bool := p.root != ""

/-- Follows a path from another one. -/
def join (p q : Path) : Path := if q.isAbsolute then q else ⟨p.root, p.names ++ q.names⟩

instance : Div Path := ⟨join⟩

/-- A path with one more name. -/
def child (p : Path) (name : String) : Path := p / ofString name

def parent (p : Path) : Path := ⟨p.root, p.names.dropLast⟩

/-- Follows names from a place, where `..` goes back by one. -/
def follow (place names : List String) : List String :=
  names.foldl (fun place name => if name = ".." then place.dropLast else place ++ [name]) place

/-- The path from the root to where a path leads from a current directory. -/
def resolved (p here : Path) : Path :=
  ⟨"/", follow (if p.isAbsolute then [] else follow [] here.names) p.names⟩

def name (p : Path) : String := (p.names.getLast?).getD ""

/-- Do some names come before others, or are they the same? They are compared name by name. -/
def namesBefore : List String → List String → Bool
  | [], _ => true
  | _ :: _, [] => false
  | a :: as, b :: bs => a < b || (a == b && namesBefore as bs)

/-- Paths are listed in the order of their names. -/
def before (p q : Path) : Bool := p.root < q.root || (p.root == q.root && namesBefore p.names q.names)

end Path

end ScriptedRobot
