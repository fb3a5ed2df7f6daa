import ScriptedRobot.Text.Range

/-!
# Blank characters

White space is the property of Unicode of that name. Blank is a little wider: it also takes in the
four information separators `\x1c` to `\x1f`. The zero-width space and the byte order mark are
neither.

`trim` takes the blanks off both ends. Its law is `trim_eq_nil_iff`: nothing is left exactly when
every character is blank.
-/

namespace ScriptedRobot.Text

/-- The ranges of white space. -/
def whiteSpaceRanges : List CodeRange :=
  [(0x09, 0x0D), (0x20, 0x20), (0x85, 0x85), (0xA0, 0xA0), (0x1680, 0x1680), (0x2000, 0x200A),
   (0x2028, 0x2029), (0x202F, 0x202F), (0x205F, 0x205F), (0x3000, 0x3000)]

/-- Is this white space? -/
def isWhiteSpace (c : Char) : Bool := inRanges whiteSpaceRanges c

/-- Is this a blank character, white space or an information separator? -/
def isBlank (c : Char) : Bool := isWhiteSpace c || inRanges [(0x1C, 0x1F)] c

/-- The text without the characters of a class at either end. -/
def trimWhere (inClass : Char → Bool) (cs : List Char) : List Char :=
  ((cs.dropWhile inClass).reverse.dropWhile inClass).reverse

def trimLeft (cs : List Char) : List Char := cs.dropWhile isBlank

/-- The text without the blanks at either end. -/
def trim (cs : List Char) : List Char := trimWhere isBlank cs

/-- Is every character blank? This holds of the empty text. -/
def allBlank (cs : List Char) : Bool := cs.all isBlank

theorem trimLeft_eq_nil_iff {cs : List Char} : trimLeft cs = [] ↔ allBlank cs := by
  induction cs with
  | nil => simp [trimLeft, allBlank]
  | cons c cs ih =>
    by_cases h : isBlank c = true
    · have step : trimLeft (c :: cs) = trimLeft cs := by simp [trimLeft, h]
      rw [step, ih]
      simp [allBlank, h]
    · simp [trimLeft, allBlank, h]

theorem trim_eq_nil_iff {cs : List Char} : trim cs = [] ↔ allBlank cs := by
  refine ⟨fun h => ?_, fun h => ?_⟩
  · have all : allBlank (trimLeft cs) := by
      have := trimLeft_eq_nil_iff.1 (List.reverse_eq_nil_iff.1 h)
      simpa [allBlank, trimLeft] using this
    cases left : trimLeft cs with
    | nil => exact trimLeft_eq_nil_iff.1 left
    | cons c rest =>
      have blank : isBlank c = true := by
        rw [left] at all
        simp only [allBlank, List.all_cons, Bool.and_eq_true] at all
        exact all.1
      have := List.head?_dropWhile_not isBlank cs
      rw [show cs.dropWhile isBlank = c :: rest from left] at this
      simp [blank] at this
  · simp [trim, trimWhere, show cs.dropWhile isBlank = [] from trimLeft_eq_nil_iff.2 h]

end ScriptedRobot.Text
