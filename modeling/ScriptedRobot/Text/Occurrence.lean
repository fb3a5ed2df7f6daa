/-!
# Occurrences of words

Whether a word occurs in a text, in one piece.
-/

namespace ScriptedRobot.Text

/-- Does a word occur in a text? The empty word occurs everywhere. -/
def occursIn (word : List Char) : List Char → Bool
  | [] => word.isEmpty
  | c :: rest => word.isPrefixOf (c :: rest) || occursIn word rest

theorem occursIn_iff {word text : List Char} : occursIn word text ↔ word <:+: text := by
  induction text with
  | nil => simp [occursIn]
  | cons c rest ih => simp [occursIn, ih, List.infix_cons_iff]

end ScriptedRobot.Text
