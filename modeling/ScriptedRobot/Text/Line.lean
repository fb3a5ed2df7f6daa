/-!
# Lines of text

Two readings of line ends. Text that is split into lines ends a line at any of the line breaks of
Unicode, a carriage return followed by a line feed counting once. Text that is read from a file only
knows the carriage return and the line feed, and `unifyNewlines` turns both, alone or together, into
one line feed.
-/

namespace ScriptedRobot.Text

/-- The characters that end a line. -/
def isLineBreak (c : Char) : Bool :=
  ['\n', '\r', '\x0b', '\x0c', '\x1c', '\x1d', '\x1e', '\u0085', '\u2028', '\u2029'].contains c

/-- Puts a character in front of the first line. -/
def consToFirst (c : Char) : List (List Char) → List (List Char)
  | [] => [[c]]
  | line :: rest => (c :: line) :: rest

/-- The lines of a text, without their line breaks. A break at the very end opens no further line,
and the empty text has no line. -/
def lines : List Char → List (List Char)
  | [] => []
  | '\r' :: '\n' :: rest => [] :: lines rest
  | c :: rest => if isLineBreak c then [] :: lines rest else consToFirst c (lines rest)

/-- Every way of ending a line in a file becomes a line feed. -/
def unifyNewlines : List Char → List Char
  | [] => []
  | '\r' :: '\n' :: rest => '\n' :: unifyNewlines rest
  | c :: rest => (if c = '\r' then '\n' else c) :: unifyNewlines rest

/-- The lines of a file whose line ends are unified: cut at the line feeds alone. -/
def fileLines : List Char → List (List Char)
  | [] => []
  | c :: rest => if c = '\n' then [] :: fileLines rest else consToFirst c (fileLines rest)

end ScriptedRobot.Text
