import ScriptedRobot.Text.Blank
import ScriptedRobot.Text.Digit
import ScriptedRobot.Text.Quoted

/-!
# Whole numbers in text

A numeral is an optional sign and digits, with white space allowed around it and single underscores
between two digits. The digits may come from any script. `read` takes decimal numerals;
`readAnyBase` also takes the bases announced by `0x`, `0o` and `0b`, and then refuses a decimal
numeral other than zero that starts with `0`.

Decimal numerals of more than `digitLimit` digits are refused for their length, and numbers that would
need more are not written.
-/

namespace ScriptedRobot.Text

/-- Why a text is not read as a whole number, or a number not written as text. -/
inductive NumeralFault where
  /-- The text is no numeral of the base, where base 0 stands for any. -/
  | malformed (base : Nat) (text : String)
  /-- The numeral has more digits than the limit. -/
  | tooLong (digits : Nat)
  /-- The number would need more digits than the limit. -/
  | unwritable
  deriving DecidableEq, Repr

namespace NumeralFault

/-- The longest quotation of a refused text. -/
def quotationLimit : Nat := 200

def message : NumeralFault → String
  | malformed base text =>
    let quotation := String.ofList ((quoted text.toList).take quotationLimit)
    s!"invalid literal for int() with base {base}: {quotation}"
  | tooLong digits =>
    s!"Exceeds the limit (4300 digits) for integer string conversion: value has {digits} digits; "
      ++ "use sys.set_int_max_str_digits() to increase the limit"
  | unwritable =>
    "Exceeds the limit (4300 digits) for integer string conversion; "
      ++ "use sys.set_int_max_str_digits() to increase the limit"

end NumeralFault

namespace Numeral

/-- The most digits a decimal numeral may have. -/
def digitLimit : Nat := 4300

/-- The least number that needs more digits than the limit. -/
def writeBound : Nat := Nat.pow 10 digitLimit

/-- Is a number short enough to be written? -/
def isWritable (n : Int) : Bool := n.natAbs < writeBound

/-- The number that a list of digits stands for, the most significant first. -/
def ofDigits (base : Nat) (digits : List Nat) : Nat :=
  digits.foldl (fun n d => n * base + d) 0

/-- The value of a digit of a base up to 36, in ASCII. -/
def digitOf? (base : Nat) (c : Char) : Option Nat :=
  let value? : Option Nat :=
    if '0' ≤ c ∧ c ≤ '9' then some (c.toNat - '0'.toNat)
    else if 'a' ≤ c.toLower ∧ c.toLower ≤ 'z' then some (c.toLower.toNat - 'a'.toNat + 10)
    else none
  value?.filter (· < base)

/-- Splits a text after its leading digits. A single underscore may stand between two digits; any
other underscore among them is an error. -/
def digitRun (base : Nat) : List Char → Option (List Nat × List Char)
  | [] => some ([], [])
  | c :: rest =>
    match digitOf? base c with
    | some d => (digitRun base rest).map fun (ds, rest) => (d :: ds, rest)
    | none =>
      if c = '_' then
        if (rest.head?.bind (digitOf? base)).isSome then digitRun base rest else none
      else some ([], c :: rest)

/-- The digits at the front of a text, of which there must be one and which may not start with an
underscore. -/
def digits? (base : Nat) (cs : List Char) : Option (List Nat × List Char) :=
  if (cs.head?.bind (digitOf? base)).isSome then digitRun base cs else none

/-- The digits of all scripts become those of ASCII. -/
def plainDigits (cs : List Char) : List Char :=
  cs.map fun c => ((digitValue? c).map Nat.digitChar).getD c

/-- Takes a sign off the front; `true` means negative. -/
def takeSign : List Char → Bool × List Char
  | '-' :: rest => (true, rest)
  | '+' :: rest => (false, rest)
  | cs => (false, cs)

def signed (negative : Bool) (n : Nat) : Int := if negative then -(n : Int) else n

def read (text : List Char) : Except NumeralFault Int :=
  let malformed := .error (.malformed 10 (String.ofList text))
  let (negative, body) := takeSign (trimWhere isWhiteSpace (plainDigits text))
  match digits? 10 body with
  | none => malformed
  | some (ds, rest) =>
    if ds.length > digitLimit then .error (.tooLong ds.length)
    else if rest ≠ [] then malformed
    else .ok (signed negative (ofDigits 10 ds))

/-- The base that the front of a numeral announces, and what follows the announcement. One
underscore may follow it. -/
def announcedBase : List Char → Nat × List Char
  | '0' :: mark :: rest =>
    let rest' := match rest with
      | '_' :: rest => rest
      | rest => rest
    match mark.toLower with
    | 'x' => (16, rest')
    | 'o' => (8, rest')
    | 'b' => (2, rest')
    | _ => (10, '0' :: mark :: rest)
  | cs => (10, cs)

/-- Reads a numeral of any of the bases 2, 8, 10 and 16. -/
def readAnyBase (text : List Char) : Except NumeralFault Int :=
  let malformed := .error (.malformed 0 (String.ofList text))
  let (negative, body) := takeSign (trimWhere isWhiteSpace (plainDigits text))
  let (base, body) := announcedBase body
  match digits? base body with
  | none => malformed
  | some (ds, rest) =>
    if base = 10 ∧ ds.length > digitLimit then .error (.tooLong ds.length)
    else if rest ≠ [] then malformed
    else if base = 10 ∧ ds.head? = some 0 ∧ ofDigits 10 ds ≠ 0 then malformed
    else .ok (signed negative (ofDigits base ds))

end Numeral

end ScriptedRobot.Text
