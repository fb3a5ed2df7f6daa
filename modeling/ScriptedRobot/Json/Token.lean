import ScriptedRobot.Json
import ScriptedRobot.Text.Numeral

/-!
# The tokens of JSON

Text is cut into brackets, commas, colons, strings, numbers and words. A number stays text here: what
it is worth, and whether it is too long to be read, is settled when its value is needed. The first
thing that is no token ends the list with `invalid`.
-/

namespace ScriptedRobot.Json

open Text

/-- A number as it is written. -/
structure Literal where
  negative : Bool
  whole : List Char
  /-- The digits behind the point; empty without a point. -/
  fraction : List Char
  /-- The sign and the digits of the exponent. -/
  exponent : Option (Bool × List Char)
  deriving DecidableEq, Repr

inductive Token where
  | openArray
  | closeArray
  | openObject
  | closeObject
  | comma
  | colon
  | str (s : String)
  | number (literal : Literal)
  | word (value : Json)
  | invalid

def isSpace (c : Char) : Bool := c = ' ' || c = '\t' || c = '\n' || c = '\r'

def hexValue? (c : Char) : Option Nat := Numeral.digitOf? 16 c

/-- The UTF-16 unit that four hexadecimal digits stand for. -/
def unit? (a b c d : Char) : Option Nat := do
  return (((← hexValue? a) * 16 + (← hexValue? b)) * 16 + (← hexValue? c)) * 16 + (← hexValue? d)

/-- Is this UTF-16 unit the first of a pair? -/
def isHighUnit (n : Nat) : Bool := 0xD800 ≤ n && n ≤ 0xDBFF

/-- Is this UTF-16 unit the second of a pair? -/
def isLowUnit (n : Nat) : Bool := 0xDC00 ≤ n && n ≤ 0xDFFF

/-- The character of a pair of UTF-16 units. -/
def ofPair (high low : Nat) : Char := Char.ofNat (0x10000 + (high - 0xD800) * 0x400 + (low - 0xDC00))

/-- The character of a single UTF-16 unit; half a pair becomes the replacement character. -/
def ofUnit (n : Nat) : Char := if isHighUnit n || isLowUnit n then '\uFFFD' else Char.ofNat n

/-- The character that a backslash and a letter stand for. -/
def simpleEscape? : Char → Option Char
  | '"' => some '"'
  | '\\' => some '\\'
  | '/' => some '/'
  | 'b' => some '\x08'
  | 'f' => some '\x0c'
  | 'n' => some '\n'
  | 'r' => some '\r'
  | 't' => some '\t'
  | _ => none

def consChar (c : Char) : List Char × List Char → List Char × List Char := fun (s, rest) => (c :: s, rest)

/-- The rest of a string after its opening quote: its text and what follows the closing quote.
Control characters must be escaped. -/
def stringBody? : List Char → Option (List Char × List Char)
  | [] => none
  | '"' :: rest => some ([], rest)
  | '\\' :: 'u' :: a :: b :: c :: d :: '\\' :: 'u' :: e :: f :: g :: h :: rest =>
    match unit? a b c d with
    | none => none
    | some n =>
      if isHighUnit n then
        match unit? e f g h with
        | none => none
        | some m =>
          if isLowUnit m then (stringBody? rest).map (consChar (ofPair n m))
          else (stringBody? ('\\' :: 'u' :: e :: f :: g :: h :: rest)).map (consChar (ofUnit n))
      else (stringBody? ('\\' :: 'u' :: e :: f :: g :: h :: rest)).map (consChar (ofUnit n))
  | '\\' :: 'u' :: a :: b :: c :: d :: rest =>
    match unit? a b c d with
    | none => none
    | some n => (stringBody? rest).map (consChar (ofUnit n))
  | '\\' :: c :: rest =>
    match simpleEscape? c with
    | none => none
    | some e => (stringBody? rest).map (consChar e)
  | c :: rest => if c = '\\' || c.toNat < 0x20 then none else (stringBody? rest).map (consChar c)

def spanDigits (cs : List Char) : List Char × List Char :=
  (cs.takeWhile Char.isDigit, cs.dropWhile Char.isDigit)

/-- The digits in front of the point. A zero stands alone. -/
def wholePart? : List Char → Option (List Char × List Char)
  | '0' :: rest => some (['0'], rest)
  | cs =>
    match spanDigits cs with
    | ([], _) => none
    | found => some found

/-- A point and the digits behind it; a point without digits is left alone. -/
def fractionPart (cs : List Char) : List Char × List Char :=
  match cs with
  | '.' :: rest => if (spanDigits rest).1.isEmpty then ([], cs) else spanDigits rest
  | _ => ([], cs)

/-- An exponent; one without digits is left alone. -/
def exponentPart (cs : List Char) : Option (Bool × List Char) × List Char :=
  let digits (negative : Bool) (rest : List Char) :=
    match spanDigits rest with
    | ([], _) => (none, cs)
    | (ds, rest) => (some (negative, ds), rest)
  match cs with
  | e :: rest =>
    if e = 'e' || e = 'E' then
      match rest with
      | '-' :: rest => digits true rest
      | '+' :: rest => digits false rest
      | rest => digits false rest
    else (none, cs)
  | [] => (none, cs)

/-- A number at the front of a text. -/
def literal? (cs : List Char) : Option (Literal × List Char) := do
  let (negative, rest) := match cs with
    | '-' :: rest => (true, rest)
    | cs => (false, cs)
  let (whole, rest) ← wholePart? rest
  let (fraction, rest) := fractionPart rest
  let (exponent, rest) := exponentPart rest
  return (⟨negative, whole, fraction, exponent⟩, rest)

def words : List (String × Json) :=
  [("null", null), ("true", bool true), ("false", bool false), ("NaN", float .nan),
   ("Infinity", float (.infinite false)), ("-Infinity", float (.infinite true))]

def word? (cs : List Char) : Option (Json × List Char) :=
  words.findSome? fun (word, value) =>
    if word.toList <+: cs then some (value, cs.drop word.length) else none

/-- The token at the front of a text that starts with `c`, with what follows it. -/
def tokenAt? (c : Char) (rest : List Char) : Option (Token × List Char) :=
  match c with
  | '[' => some (.openArray, rest)
  | ']' => some (.closeArray, rest)
  | '\x7b' => some (.openObject, rest)
  | '\x7d' => some (.closeObject, rest)
  | ',' => some (.comma, rest)
  | ':' => some (.colon, rest)
  | '"' => (stringBody? rest).map fun (s, rest) => (.str (String.ofList s), rest)
  | c =>
    match word? (c :: rest) with
    | some (value, rest) => some (.word value, rest)
    | none => (literal? (c :: rest)).map fun (literal, rest) => (.number literal, rest)

/-- The tokens of a text, looked for at most `fuel` times. -/
def tokensWithin : Nat → List Char → List Token
  | 0, _ => []
  | fuel + 1, cs =>
    match cs.dropWhile isSpace with
    | [] => []
    | c :: rest =>
      match tokenAt? c rest with
      | none => [.invalid]
      | some (token, rest) => token :: tokensWithin fuel rest

/-- The tokens of a text. Each takes at least one character. -/
def tokens (cs : List Char) : List Token := tokensWithin (cs.length + 1) cs

end ScriptedRobot.Json
