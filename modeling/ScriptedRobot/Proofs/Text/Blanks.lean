import Mathlib.Data.List.TakeWhile
import ScriptedRobot.Text.Blank

/-!
# Text behind blanks

What is left of a text without its leading blanks, said by the text: it is the blanks and the rest, which starts with
no blank.
-/

namespace ScriptedRobot.Text

theorem not_isAlphanum_of_isBlank {c : Char} (h : isBlank c = true) : c.isAlphanum = false := by
  by_contra hchar
  have hclasses : ((c.isUpper || c.isLower) || c.isDigit) = true := Bool.not_eq_false _ ▸ hchar
  have hranges : (65 ≤ c.toNat ∧ c.toNat ≤ 90) ∨ (97 ≤ c.toNat ∧ c.toNat ≤ 122) ∨ (48 ≤ c.toNat ∧ c.toNat ≤ 57) := by
    rw [Bool.or_eq_true, Bool.or_eq_true] at hclasses
    rcases hclasses with (hupper | hlower) | hdigit
    · obtain ⟨low, high⟩ := of_decide_eq_true hupper
      exact .inl ⟨UInt32.le_iff_toNat_le.1 low, UInt32.le_iff_toNat_le.1 high⟩
    · obtain ⟨hlow, hhigh⟩ := Bool.and_eq_true_iff.1 hlower
      have low := of_decide_eq_true hlow
      have high := of_decide_eq_true hhigh
      exact .inr (.inl ⟨UInt32.le_iff_toNat_le.1 low, UInt32.le_iff_toNat_le.1 high⟩)
    · exact .inr (.inr (Char.isDigit_iff_toNat.1 hdigit))
  simp only [isBlank, isWhiteSpace, whiteSpaceRanges, inRanges, List.any_cons, List.any_nil, Bool.or_false,
    Bool.or_eq_true, Bool.and_eq_true, decide_eq_true_eq] at h
  omega

theorem trimLeft_of_not_isBlank {c : Char} (h : isBlank c = false) (cs : List Char) :
    trimLeft (c :: cs) = c :: cs := by
  rw [trimLeft, List.dropWhile_cons_of_neg (by simp [h])]

theorem trimLeft_append {blanks : List Char} (h : allBlank blanks = true) (cs : List Char) :
    trimLeft (blanks ++ cs) = trimLeft cs :=
  List.dropWhile_append_of_pos (List.all_eq_true.1 h)

theorem exists_blanks (cs : List Char) : ∃ blanks, allBlank blanks = true ∧ cs = blanks ++ trimLeft cs :=
  ⟨cs.takeWhile isBlank, List.all_eq_true.2 fun _ hc => List.mem_takeWhile_imp hc,
    List.takeWhile_append_dropWhile.symm⟩

/-- A text starts with something that is no blank, blanks apart. -/
theorem trimLeft_eq_cons_iff {c : Char} (h : isBlank c = false) {cs rest : List Char} :
    trimLeft cs = c :: rest ↔ ∃ blanks, allBlank blanks = true ∧ cs = blanks ++ c :: rest := by
  constructor
  · intro heq
    obtain ⟨blanks, hblanks, hcs⟩ := exists_blanks cs
    exact ⟨blanks, hblanks, heq ▸ hcs⟩
  · rintro ⟨blanks, hblanks, rfl⟩
    rw [trimLeft_append hblanks, trimLeft_of_not_isBlank h]

end ScriptedRobot.Text
