import ScriptedRobot.Path

/-!
# Resources

Levels refer to text files by path. A loader gives the text behind a path or says why there is none.
-/

namespace ScriptedRobot

/-- Why a text cannot be had. -/
inductive ReadFailure where
  /-- There is no such file, or it cannot be opened. -/
  | unavailable (reason : String)
  /-- The file is not UTF-8. -/
  | undecodable
  /-- The path holds a null character, which no file name does. -/
  | nullInPath
  /-- The loader gives up for a reason of its own. -/
  | broken (reason : String)
  deriving DecidableEq, Repr

/-- Where the texts of resources come from. -/
abbrev Loader := Path → Except ReadFailure String

/-- The path of a resource, seen from the resource root if there is one. -/
def resourcePath (root : Option Path) (p : Path) : Path :=
  match root with
  | none => p
  | some root => root / p

/-- A loader that knows a fixed list of texts; any other path is reported by its own name. -/
def Loader.ofTexts (texts : List (String × String)) : Loader := fun p =>
  match texts.lookup p.text with
  | some text => .ok text
  | none => .error (.unavailable p.text)

end ScriptedRobot
