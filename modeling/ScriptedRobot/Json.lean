import ScriptedRobot.Binary64

/-!
# JSON values

A value holds integers exactly and keeps them apart from the numbers written with a point or an
exponent. An object is the list of its fields in order, without repeated keys.
-/

namespace ScriptedRobot

inductive Json where
  | null
  | bool (b : Bool)
  | int (n : Int)
  | float (x : Binary64)
  | str (s : String)
  | arr (elements : List Json)
  | obj (fields : List (String × Json))

namespace Json

instance : Inhabited Json := ⟨null⟩

/-- Gives a field of an object a value: in its old place if the key is there, else at the end. -/
def put (key : String) (value : Json) : List (String × Json) → List (String × Json)
  | [] => [(key, value)]
  | field :: rest => if field.1 = key then (key, value) :: rest else field :: put key value rest

/-- The object of some fields in order. Of fields with one key the last value counts, in the place
of the first. -/
def ofFields (fields : List (String × Json)) : Json :=
  obj (fields.foldl (fun object (key, value) => put key value object) [])

def get? (key : String) : Json → Option Json
  | obj fields => fields.lookup key
  | _ => none

/-- A number of type `Int`, where a count is wanted. -/
def nat (n : Nat) : Json := int n

def orNull {α : Type} (toJson : α → Json) : Option α → Json
  | none => null
  | some a => toJson a

def strings (texts : List String) : Json := arr (texts.map str)

/-- Does the value count as true? Null, false, zero and everything empty does not. -/
def truthy : Json → Bool
  | null => false
  | bool b => b
  | int n => n != 0
  | float x => x.nonzero
  | str s => s != ""
  | arr elements => !elements.isEmpty
  | obj fields => !fields.isEmpty

end Json

end ScriptedRobot
