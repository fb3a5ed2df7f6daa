import Mathlib
import ScriptedRobot.Json.Parser
import ScriptedRobot.Json.Printer

/-!
# JSON strings

A string that is written is read back up to its closing quote (`stringBody?_escaped`), and no part of it that
stops before that quote is read as a string (`stringBody?_cut`). Every character of it is visible.
-/

namespace ScriptedRobot.Json

open Text

theorem hexValue?_digitChar {d : Nat} (h : d < 16) : hexValue? (Nat.digitChar d) = some d := by
  have hall : ∀ d < 16, hexValue? (Nat.digitChar d) = some d := by decide
  exact hall d h

theorem escapedUnit_eq (n : Nat) : escapedUnit n = ['\\', 'u', Nat.digitChar (n >>> 12 % 16),
    Nat.digitChar (n >>> 8 % 16), Nat.digitChar (n >>> 4 % 16), Nat.digitChar (n % 16)] := rfl

theorem unit?_digits {n : Nat} (h : n < 0x10000) : unit? (Nat.digitChar (n >>> 12 % 16))
    (Nat.digitChar (n >>> 8 % 16)) (Nat.digitChar (n >>> 4 % 16)) (Nat.digitChar (n % 16)) = some n := by
  have hmod (k : Nat) : k % 16 < 16 := Nat.mod_lt k (by decide)
  have hvalue : (((n >>> 12 % 16) * 16 + n >>> 8 % 16) * 16 + n >>> 4 % 16) * 16 + n % 16 = n := by
    simp only [Nat.shiftRight_eq_div_pow]
    omega
  simp only [unit?, hexValue?_digitChar (hmod _), bind, Option.bind, pure, hvalue]

/-- A unit is read by itself if it is no first half, or if nothing behind it can be a second half. -/
theorem stringBody?_unit {n : Nat} (h : n < 0x10000) {rest : List Char}
    (single : isHighUnit n = false ∨ rest.length < 6) :
    stringBody? (escapedUnit n ++ rest) = (stringBody? rest).map (consChar (ofUnit n)) := by
  have hunit := unit?_digits h
  rw [escapedUnit_eq]
  simp only [List.cons_append, List.nil_append]
  rw [stringBody?.eq_def]
  split
  · rename_i heq
    cases heq
  · rename_i heq
    cases heq
  · rename_i heq
    cases heq
    rcases single with hsingle | hshort
    · simp only [hunit, hsingle, Bool.false_eq_true, if_false]
    · simp only [List.length_cons] at hshort
      omega
  · rename_i heq
    cases heq
    simp only [hunit]
  · rename_i hlong heq
    cases heq
    exact (hlong _ _ _ _ _ rfl rfl).elim
  · rename_i hlong heq
    cases heq
    exact (hlong _ _ rfl rfl).elim

theorem stringBody?_pair {n m : Nat} (hn : n < 0x10000) (hm : m < 0x10000) (high : isHighUnit n = true)
    (low : isLowUnit m = true) (rest : List Char) :
    stringBody? (escapedUnit n ++ escapedUnit m ++ rest) = (stringBody? rest).map (consChar (ofPair n m)) := by
  rw [escapedUnit_eq, escapedUnit_eq]
  simp only [List.cons_append, List.nil_append]
  rw [stringBody?]
  simp only [unit?_digits hn, unit?_digits hm, high, low, if_true]

theorem stringBody?_visible {c : Char} (visible : 0x20 ≤ c.toNat) (quote : c ≠ '"') (backslash : c ≠ '\\')
    (rest : List Char) : stringBody? (c :: rest) = (stringBody? rest).map (consChar c) := by
  have hnot : ¬ ((decide (c = '\\') || decide (c.toNat < 0x20)) = true) := by simp [backslash, visible]
  rw [stringBody?.eq_def]
  split
  · rename_i heq
    cases heq
  · rename_i heq
    cases heq
    exact absurd rfl quote
  · rename_i heq
    cases heq
    exact absurd rfl backslash
  · rename_i heq
    cases heq
    exact absurd rfl backslash
  · rename_i heq
    cases heq
    exact absurd rfl backslash
  · rename_i heq
    cases heq
    rw [if_neg hnot]

theorem stringBody?_letter {letter c : Char} (h : simpleEscape? letter = some c) (rest : List Char) :
    stringBody? ('\\' :: letter :: rest) = (stringBody? rest).map (consChar c) := by
  have hunit : letter ≠ 'u' := by
    rintro rfl
    cases h
  rw [stringBody?.eq_def]
  split
  · rename_i heq
    cases heq
  · rename_i heq
    cases heq
  · rename_i heq
    cases heq
    exact absurd rfl hunit
  · rename_i heq
    cases heq
    exact absurd rfl hunit
  · rename_i heq
    cases heq
    simp only [h]
  · rename_i hlong heq
    cases heq
    exact (hlong _ _ rfl rfl).elim

/-! ## Characters -/

/-- How a character is written: with a letter of its own after a backslash, as it is, as one unit or as two. -/
theorem escapedChar_cases (c : Char) :
    (∃ letter, escapedChar c = ['\\', letter] ∧ simpleEscape? letter = some c) ∨
      (escapedChar c = [c] ∧ 0x20 ≤ c.toNat ∧ c.toNat ≤ 0x7E ∧ c ≠ '"' ∧ c ≠ '\\') ∨
      (escapedChar c = escapedUnit c.toNat ∧ c.toNat < 0x10000) ∨
      (escapedChar c = escapedUnit (0xD800 + (c.toNat - 0x10000) / 0x400) ++
          escapedUnit (0xDC00 + (c.toNat - 0x10000) % 0x400) ∧ 0x10000 ≤ c.toNat) := by
  unfold escapedChar
  split
  · exact .inl ⟨'"', rfl, rfl⟩
  · exact .inl ⟨'\\', rfl, rfl⟩
  · exact .inl ⟨'n', rfl, rfl⟩
  · exact .inl ⟨'r', rfl, rfl⟩
  · exact .inl ⟨'t', rfl, rfl⟩
  · exact .inl ⟨'b', rfl, rfl⟩
  · exact .inl ⟨'f', rfl, rfl⟩
  · rename_i hquote hbackslash _ _ _ _ _
    simp only
    split
    · rename_i hvisible
      exact .inr (.inl ⟨rfl, hvisible.1, hvisible.2, hquote, hbackslash⟩)
    · split
      · rename_i hsmall
        exact .inr (.inr (.inl ⟨rfl, hsmall⟩))
      · rename_i hlarge
        exact .inr (.inr (.inr ⟨rfl, by omega⟩))

theorem ofUnit_toNat (c : Char) : isHighUnit c.toNat = false ∧ ofUnit c.toNat = c := by
  have hvalid : c.toNat < 0xD800 ∨ 0xDFFF < c.toNat ∧ c.toNat < 0x110000 := c.valid
  have hhigh : isHighUnit c.toNat = false := by
    simp only [isHighUnit, Bool.and_eq_false_iff, decide_eq_false_iff_not]
    omega
  have hlow : isLowUnit c.toNat = false := by
    simp only [isLowUnit, Bool.and_eq_false_iff, decide_eq_false_iff_not]
    omega
  refine ⟨hhigh, ?_⟩
  rw [ofUnit, hhigh, hlow]
  exact Char.ofNat_toNat c

/-- The two units of a character that one unit is not enough for. -/
theorem ofPair_toNat {c : Char} (large : 0x10000 ≤ c.toNat) :
    isHighUnit (0xD800 + (c.toNat - 0x10000) / 0x400) = true ∧ isLowUnit (0xDC00 + (c.toNat - 0x10000) % 0x400) = true ∧
      ofPair (0xD800 + (c.toNat - 0x10000) / 0x400) (0xDC00 + (c.toNat - 0x10000) % 0x400) = c := by
  have hvalid : c.toNat < 0xD800 ∨ 0xDFFF < c.toNat ∧ c.toNat < 0x110000 := c.valid
  refine ⟨?_, ?_, ?_⟩
  · simp only [isHighUnit, Bool.and_eq_true, decide_eq_true_eq]
    omega
  · simp only [isLowUnit, Bool.and_eq_true, decide_eq_true_eq]
    omega
  · have hvalue : 0x10000 + (0xD800 + (c.toNat - 0x10000) / 0x400 - 0xD800) * 0x400 +
        (0xDC00 + (c.toNat - 0x10000) % 0x400 - 0xDC00) = c.toNat := by omega
    rw [ofPair, hvalue]
    exact Char.ofNat_toNat c

/-- A character that is written is read back. -/
theorem stringBody?_escapedChar (c : Char) (rest : List Char) :
    stringBody? (escapedChar c ++ rest) = (stringBody? rest).map (consChar c) := by
  rcases escapedChar_cases c with ⟨letter, heq, hletter⟩ | ⟨heq, hvisible, -, hquote, hbackslash⟩ | ⟨heq, hsmall⟩ |
    ⟨heq, hlarge⟩
  · rw [heq]
    exact stringBody?_letter hletter rest
  · rw [heq]
    exact stringBody?_visible hvisible hquote hbackslash rest
  · obtain ⟨hsingle, hback⟩ := ofUnit_toNat c
    rw [heq, stringBody?_unit hsmall (.inl hsingle), hback]
  · have hvalid : c.toNat < 0xD800 ∨ 0xDFFF < c.toNat ∧ c.toNat < 0x110000 := c.valid
    obtain ⟨hhigh, hlow, hback⟩ := ofPair_toNat hlarge
    rw [heq, stringBody?_pair (by omega) (by omega) hhigh hlow, hback]

theorem prefix_append_cases {α : Type} {part a b : List α} (h : part <+: a ++ b) :
    (part <+: a ∧ part ≠ a) ∨ ∃ more, part = a ++ more ∧ more <+: b := by
  rcases List.prefix_or_prefix_of_prefix h (List.prefix_append a b) with hpart | ⟨more, rfl⟩
  · by_cases hwhole : part = a
    · exact .inr ⟨[], by rw [hwhole, List.append_nil], List.nil_prefix⟩
    · exact .inl ⟨hpart, hwhole⟩
  · exact .inr ⟨more, rfl, (List.prefix_append_right_inj a).1 h⟩

theorem stringBody?_unit_part {n : Nat} {part : List Char} (h : part <+: escapedUnit n) (short : part ≠ escapedUnit n) :
    stringBody? part = none ∧ part.length < 6 := by
  rw [escapedUnit_eq] at h short
  simp only [List.prefix_cons_iff, List.prefix_nil] at h
  rcases h with rfl | ⟨_, rfl, rfl | ⟨_, rfl, rfl | ⟨_, rfl, rfl | ⟨_, rfl, rfl | ⟨_, rfl, rfl | ⟨_, rfl, rfl⟩⟩⟩⟩⟩⟩
  · exact ⟨rfl, by decide⟩
  · exact ⟨rfl, by decide⟩
  · exact ⟨rfl, by decide⟩
  · exact ⟨rfl, by simp⟩
  · exact ⟨rfl, by simp⟩
  · exact ⟨rfl, by simp⟩
  · exact absurd rfl short

/-- A part of what is written for a character is not the whole of a string. -/
theorem stringBody?_part {c : Char} {part : List Char} (h : part <+: escapedChar c) (short : part ≠ escapedChar c) :
    stringBody? part = none := by
  have hempty : stringBody? [] = none := rfl
  rcases escapedChar_cases c with ⟨letter, heq, -⟩ | ⟨heq, -⟩ | ⟨heq, -⟩ | ⟨heq, hlarge⟩
  · rw [heq] at h short
    simp only [List.prefix_cons_iff, List.prefix_nil] at h
    rcases h with rfl | ⟨_, rfl, rfl | ⟨_, rfl, rfl⟩⟩
    · exact hempty
    · rfl
    · exact absurd rfl short
  · rw [heq] at h short
    simp only [List.prefix_cons_iff, List.prefix_nil] at h
    rcases h with rfl | ⟨_, rfl, rfl⟩
    · exact hempty
    · exact absurd rfl short
  · rw [heq] at h short
    exact (stringBody?_unit_part h short).1
  · have hvalid : c.toNat < 0xD800 ∨ 0xDFFF < c.toNat ∧ c.toNat < 0x110000 := c.valid
    rw [heq] at h short
    rcases prefix_append_cases h with ⟨hpart, hshort⟩ | ⟨more, rfl, hmore⟩
    · exact (stringBody?_unit_part hpart hshort).1
    · have hshort : more ≠ escapedUnit (0xDC00 + (c.toNat - 0x10000) % 0x400) := by
        rintro rfl
        exact short rfl
      obtain ⟨hnone, hlength⟩ := stringBody?_unit_part hmore hshort
      rw [stringBody?_unit (by omega) (.inr hlength), hnone]
      rfl

/-! ## Strings -/

theorem stringBody?_escaped (cs rest : List Char) :
    stringBody? (cs.flatMap escapedChar ++ '"' :: rest) = some (cs, rest) := by
  induction cs with
  | nil => rfl
  | cons c cs ih =>
    rw [List.flatMap_cons, List.append_assoc, stringBody?_escapedChar, ih]
    rfl

theorem stringBody?_cut {cs part : List Char} (h : part <+: cs.flatMap escapedChar) : stringBody? part = none := by
  induction cs generalizing part with
  | nil =>
    rw [List.prefix_nil.1 h]
    rfl
  | cons c cs ih =>
    rw [List.flatMap_cons] at h
    rcases prefix_append_cases h with ⟨hpart, hshort⟩ | ⟨more, rfl, hmore⟩
    · exact stringBody?_part hpart hshort
    · rw [stringBody?_escapedChar, ih hmore]
      rfl

/-! ## What is visible -/

/-- The character is a visible one of ASCII or a blank. -/
def IsVisible (c : Char) : Prop := 0x20 ≤ c.toNat ∧ c.toNat ≤ 0x7E

instance (c : Char) : Decidable (IsVisible c) := inferInstanceAs (Decidable (_ ∧ _))

theorem isVisible_digitChar {d : Nat} (h : d < 16) : IsVisible (Nat.digitChar d) := by
  have hall : ∀ d < 16, IsVisible (Nat.digitChar d) := by decide
  exact hall d h

theorem isVisible_of_mem_unit {n : Nat} {d : Char} (h : d ∈ escapedUnit n) : IsVisible d := by
  have hmod (k : Nat) : k % 16 < 16 := Nat.mod_lt k (by decide)
  rw [escapedUnit_eq] at h
  simp only [List.mem_cons, List.not_mem_nil, or_false] at h
  rcases h with rfl | rfl | rfl | rfl | rfl | rfl
  · decide
  · decide
  · exact isVisible_digitChar (hmod _)
  · exact isVisible_digitChar (hmod _)
  · exact isVisible_digitChar (hmod _)
  · exact isVisible_digitChar (hmod _)

theorem isVisible_of_mem_escapedChar {c d : Char} (h : d ∈ escapedChar c) : IsVisible d := by
  rcases escapedChar_cases c with ⟨letter, heq, hletter⟩ | ⟨heq, hlow, hhigh, -⟩ | ⟨heq, -⟩ | ⟨heq, -⟩
  · rw [heq] at h
    simp only [List.mem_cons, List.not_mem_nil, or_false] at h
    rcases h with rfl | rfl
    · decide
    · unfold simpleEscape? at hletter
      split at hletter <;> first | decide | cases hletter
  · rw [heq, List.mem_singleton] at h
    exact h ▸ ⟨hlow, hhigh⟩
  · rw [heq] at h
    exact isVisible_of_mem_unit h
  · rw [heq] at h
    rcases List.mem_append.1 h with h | h
    · exact isVisible_of_mem_unit h
    · exact isVisible_of_mem_unit h

theorem isVisible_of_mem_stringText {s : String} {d : Char} (h : d ∈ stringText s) : IsVisible d := by
  rw [stringText] at h
  rcases List.mem_append.1 h with h | h
  · rcases List.mem_cons.1 h with rfl | h
    · decide
    · obtain ⟨c, -, hd⟩ := List.mem_flatMap.1 h
      exact isVisible_of_mem_escapedChar hd
  · rw [List.mem_singleton.1 h]
    decide

end ScriptedRobot.Json
