import ScriptedRobot.Text.Blank
import ScriptedRobot.Text.Numeral
import ScriptedRobot.Text.Occurrence

/-!
# Whole numbers in records

A record may hold a whole number as text. Its strict form is an optional minus sign and digits of ASCII,
without zeros in front. A text that is not of this form is tidied first: white space around it, a plus
sign, zeros in front together with the underscores among them, a point with zeros behind it, and single
underscores are taken away. What is left must be of the strict form.

Zeros in front end at a digit or at a minus sign, so `0-1` is the number -1.
-/

namespace ScriptedRobot.Text.RecordNumeral

/-- Why a text is no whole number of a record. -/
inductive Fault where
  /-- It is not written as one. -/
  | malformed
  /-- It starts with more digits than the limit. -/
  | tooLong
  deriving DecidableEq, Repr

/-- Reads the strict form. A text with too many digits is refused for its length, whatever follows
them. -/
def strict (cs : List Char) : Except Fault Int :=
  let (negative, body) := match cs with
    | '-' :: rest => (true, rest)
    | cs => (false, cs)
  match body with
  | '0' :: rest => if rest.isEmpty then .ok 0 else .error .malformed
  | body =>
    let digits := body.takeWhile Char.isDigit
    if digits.length > Numeral.digitLimit then .error .tooLong
    else if digits.isEmpty || digits.length < body.length then .error .malformed
    else .ok (Numeral.signed negative (Numeral.ofDigits 10 (digits.map fun c => c.toNat - '0'.toNat)))

/-- Takes away the zeros and underscores that follow a first zero. `last` is the one before them. A
point keeps what stands right before it, and if there is nothing else the last of them stays. -/
def afterZero (last : Char) : List Char → Option (List Char)
  | [] => some [last]
  | c :: rest =>
    if c = '0' || c = '_' then afterZero c rest
    else if c.isDigit || c = '-' then some (c :: rest)
    else if c = '.' then some (last :: c :: rest)
    else none

def dropZeros : List Char → Option (List Char)
  | [] => none
  | c :: rest =>
    if c = '0' then afterZero c rest
    else if c.isDigit || c = '-' then some (c :: rest)
    else none

/-- Takes away a point with zeros behind it. -/
def dropFraction (cs : List Char) : List Char :=
  match cs.dropWhile (· ≠ '.') with
  | _ :: zeros =>
    if !zeros.isEmpty && zeros.all (· == '0') then cs.takeWhile (· ≠ '.') else cs
  | [] => cs

/-- Takes away the underscores, if each stands between two other characters. -/
def dropUnderscores (cs : List Char) : List Char :=
  if cs.head? = some '_' || cs.getLast? = some '_' || occursIn ['_', '_'] cs then cs
  else cs.filter (· ≠ '_')

def tidyBody (cs : List Char) : Option (List Char) :=
  (dropZeros cs).map fun cs => dropUnderscores (dropFraction cs)

def tidy (cs : List Char) : Option (List Char) :=
  match trimWhere isWhiteSpace cs with
  | '+' :: '-' :: _ => none
  | '+' :: body => tidyBody body
  | '-' :: body => (tidyBody body).map ('-' :: ·)
  | body => tidyBody body

/-- Reads a whole number of a record. Only a text that starts with too many digits as it stands is
refused for its length; one that does so when it is tidy counts as malformed. -/
def read (cs : List Char) : Except Fault Int :=
  match strict cs with
  | .error .malformed =>
    match tidy cs with
    | none => .error .malformed
    | some cs => (strict cs).mapError fun _ => .malformed
  | outcome => outcome

end ScriptedRobot.Text.RecordNumeral
