import Mathlib
import ScriptedRobot.Proofs.Binary64.Decimals
import ScriptedRobot.Proofs.Json.Literals

/-!
# Floating-point numbers in JSON

A finite number is written as a literal of its shortest digits (`finite_text`), which is never too long to be
read.
-/

namespace ScriptedRobot

namespace Binary64

/-- Nothing but zero has no digits. -/
theorem shortest_point {mantissa : Nat} {exponent : Int} (h : (shortest mantissa exponent).digits = 0) :
    (shortest mantissa exponent).point = 0 := by
  unfold shortest at h ⊢
  simp only at h ⊢
  split
  · rfl
  · rename_i n count hfound
    simp only [hfound] at h
    obtain ⟨place, -, hplace⟩ := List.exists_of_findSome?_eq_some hfound
    obtain ⟨found, hgrid, heq⟩ := Option.map_eq_some_iff.1 hplace
    cases heq
    have hpos := (stripZeros_spec 20 n (onGrid?_pos hgrid)).1
    omega

end Binary64

namespace Json

open Binary64

/-- The digits of an exponent: at least two. -/
def exponentDigits (e : Int) : List Char :=
  let ds := Nat.toDigits 10 e.natAbs
  if ds.length < 2 then '0' :: ds else ds

/-- Digits as they are laid out with a point. -/
def Literal.ofDecimal (negative : Bool) (d : Decimal) : Literal :=
  let ds := Nat.toDigits 10 d.digits
  if isPositional d.point then
    if d.point ≤ 0 then ⟨negative, ['0'], List.replicate (-d.point).toNat '0' ++ ds, none⟩
    else if ds.length ≤ d.point.toNat then
      ⟨negative, ds ++ List.replicate (d.point.toNat - ds.length) '0', ['0'], none⟩
    else ⟨negative, ds.take d.point.toNat, ds.drop d.point.toNat, none⟩
  else ⟨negative, ds.take 1, ds.drop 1, some (decide (d.point - 1 < 0), exponentDigits (d.point - 1))⟩

/-- A finite number as it is written. -/
def Literal.ofFinite (negative : Bool) (mantissa : Nat) (exponent : Int) : Literal :=
  if mantissa = 0 then ⟨negative, ['0'], ['0'], none⟩ else .ofDecimal negative (shortest mantissa exponent)

theorem pushn_toList (n : Nat) : ("".pushn '0' n).toList = List.replicate n '0' := by
  rw [String.pushn_eq_repeat_push]
  induction n with
  | zero => rfl
  | succ n ih => rw [Nat.repeat, String.toList_push, ih, List.replicate_succ']

theorem isEmpty_eq (s : String) : s.isEmpty = s.toList.isEmpty := by
  rw [Bool.eq_iff_iff, String.isEmpty_iff, List.isEmpty_iff, String.toList_eq_nil_iff]

theorem exponentText_toList (e : Int) : (exponentText e).toList = (if e < 0 then '-' else '+') :: exponentDigits e := by
  unfold exponentText exponentDigits
  simp only [length_toString, String.toList_append]
  by_cases negative : e < 0 <;> by_cases short : (Nat.toDigits 10 e.natAbs).length < 2 <;> simp [negative, short]

theorem ofDecimal_text (negative : Bool) (d : Decimal) :
    (Literal.ofDecimal negative d).text = (if negative then ['-'] else []) ++ d.text.toList := by
  unfold Literal.ofDecimal Decimal.text Literal.text Literal.signText Literal.fractionText Literal.exponentText
  simp only [length_toString]
  split
  · split
    · simp [pushn_toList]
    · split
      · simp [pushn_toList]
      · rename_i hlong
        have hmore : ¬ (Nat.toDigits 10 d.digits).length ≤ d.point.toNat := hlong
        simp [hmore]
  · obtain ⟨first, others, hcons⟩ := List.exists_cons_of_ne_nil (Nat.toDigits_ne_nil (n := d.digits) (b := 10))
    have htail : (d.digits.repr.drop 1).isEmpty = others.isEmpty := by
      rw [← String.Slice.isEmpty_copy, isEmpty_eq, String.toList_copy_drop, Nat.toList_repr, hcons]
      rfl
    cases others with
    | nil => simp [exponentText_toList, hcons, htail]
    | cons second others => simp [exponentText_toList, hcons, htail]

theorem isWhole_zero : IsWhole ['0'] := isWhole_toDigits 0

theorem isDigit_replicate_zero {k : Nat} {c : Char} (h : c ∈ List.replicate k '0') : c.isDigit = true := by
  rw [List.eq_of_mem_replicate h]
  decide

theorem isDigit_toDigits {n : Nat} {c : Char} (h : c ∈ Nat.toDigits 10 n) : c.isDigit = true :=
  Nat.isDigit_of_mem_toDigits (by decide) (by decide) h

/-- Zeros behind the digits of a number that is not zero leave a whole number. -/
theorem isWhole_padded {n : Nat} (h : n ≠ 0) (k : Nat) : IsWhole (Nat.toDigits 10 n ++ List.replicate k '0') := by
  refine ⟨?_, ?_, ?_⟩
  · intro c hc
    exact (List.mem_append.1 hc).elim isDigit_toDigits isDigit_replicate_zero
  · simp [Nat.toDigits_ne_nil]
  · intro hhead
    rw [List.head?_append_of_ne_nil _ Nat.toDigits_ne_nil] at hhead
    exact absurd (head?_toDigits hhead) h

theorem exponentDigits_proper (e : Int) : exponentDigits e ≠ [] ∧ ∀ c ∈ exponentDigits e, c.isDigit = true := by
  unfold exponentDigits
  simp only
  split
  · refine ⟨List.cons_ne_nil _ _, ?_⟩
    intro c hc
    rcases List.mem_cons.1 hc with rfl | hc
    · decide
    · exact isDigit_toDigits hc
  · exact ⟨Nat.toDigits_ne_nil, fun c hc => isDigit_toDigits hc⟩

theorem ofDecimal_isProper (negative : Bool) {d : Decimal} (h : d.digits = 0 → d.point = 0) :
    (Literal.ofDecimal negative d).IsProper := by
  have hwhole := isWhole_toDigits d.digits
  have htail : ∀ k : Nat, ∀ c ∈ (Nat.toDigits 10 d.digits).drop k, c.isDigit = true := fun k c hc =>
    isDigit_toDigits (List.mem_of_mem_drop hc)
  unfold Literal.ofDecimal
  simp only
  split
  · split
    · refine ⟨isWhole_zero, ?_, by simp⟩
      intro c hc
      exact (List.mem_append.1 hc).elim isDigit_replicate_zero isDigit_toDigits
    · rename_i hpoint
      split
      · have hnonzero : d.digits ≠ 0 := fun hzero => hpoint (h hzero).le
        exact ⟨isWhole_padded hnonzero _, isWhole_zero.digits, by simp⟩
      · have hsome : Nat.toDigits 10 d.digits ≠ [] ∧ d.point.toNat ≠ 0 := ⟨hwhole.nonempty, by omega⟩
        exact ⟨hwhole.part (List.take_prefix _ _) (by simp [hsome]), htail _, by simp⟩
  · refine ⟨hwhole.part (List.take_prefix _ _) (by simp [hwhole.nonempty]), htail _, ?_⟩
    intro sign ds heq
    cases heq
    exact exponentDigits_proper _

/-- The digits in front of the point are few. -/
theorem ofDecimal_short (negative : Bool) (d : Decimal) :
    (Literal.ofDecimal negative d).whole.length ≤ 16 := by
  unfold Literal.ofDecimal
  simp only
  split
  · rename_i hpositional
    have hpoint : d.point.toNat ≤ 16 := by
      simp only [isPositional, Bool.and_eq_true, decide_eq_true_eq] at hpositional
      omega
    split
    · show 1 ≤ 16
      omega
    · split
      · simp only [List.length_append, List.length_replicate]
        omega
      · rw [List.length_take]
        omega
  · rw [List.length_take]
    omega

/-! ## Finite numbers -/

variable (negative : Bool) (mantissa : Nat) (exponent : Int)

theorem ofFinite_text (spelling : Spelling) :
    (Literal.ofFinite negative mantissa exponent).text =
      (Binary64.text spelling (.finite negative mantissa exponent)).toList := by
  unfold Literal.ofFinite Binary64.text
  by_cases zero : mantissa = 0
  · cases negative <;> simp [zero, Literal.text, Literal.signText, Literal.fractionText, Literal.exponentText]
  · rw [if_neg zero, ofDecimal_text]
    cases negative <;> simp [zero]

theorem ofFinite_isProper : (Literal.ofFinite negative mantissa exponent).IsProper := by
  unfold Literal.ofFinite
  split
  · refine ⟨isWhole_zero, isWhole_zero.digits, ?_⟩
    intro sign ds hnone
    cases hnone
  · exact ofDecimal_isProper negative shortest_point

theorem ofFinite_short : (Literal.ofFinite negative mantissa exponent).whole.length ≤ Text.Numeral.digitLimit := by
  have hfew : (16 : Nat) ≤ Text.Numeral.digitLimit := by decide
  unfold Literal.ofFinite
  split
  · exact Nat.le_trans (by decide : 1 ≤ 16) hfew
  · exact Nat.le_trans (ofDecimal_short _ _) hfew

/-! ## What floating-point numbers are worth -/

namespace Literal

variable (l : Literal)

/-- The number that all digits of a literal make. -/
def digitsValue : Nat := Nat.ofDigitChars 10 (l.whole ++ l.fraction) 0

/-- The place of the last digit. -/
def place : Int :=
  (match l.exponent with
    | none => 0
    | some (negative, ds) => Text.Numeral.signed negative (Nat.ofDigitChars 10 ds 0)) - l.fraction.length

theorem ofDigits_eq (ds : List Char) :
    Text.Numeral.ofDigits 10 (ds.map fun c => c.toNat - '0'.toNat) = Nat.ofDigitChars 10 ds 0 := by
  rw [Text.Numeral.ofDigits, List.foldl_map, Nat.ofDigitChars_eq_foldl]
  congr 1
  funext n c
  rw [Nat.mul_comm]

theorem value_of_float (h : l.fraction ≠ [] ∨ l.exponent ≠ none) :
    l.value = .ok (.float (.ofDecimal l.negative l.digitsValue l.place)) := by
  have hfloat : ¬ (l.fraction.isEmpty = true ∧ l.exponent.isNone = true) := by
    rw [List.isEmpty_iff, Option.isNone_iff_eq_none]
    exact fun hint => h.elim (· hint.1) (· hint.2)
  unfold value digitsValue place
  rw [if_neg hfloat]
  obtain ⟨negative, whole, fraction, exponent⟩ := l
  cases exponent with
  | none => simp only [ofDigits_eq]
  | some exponent => simp only [ofDigits_eq]

end Literal

theorem exponentDigits_value (e : Int) : Nat.ofDigitChars 10 (exponentDigits e) 0 = e.natAbs := by
  unfold exponentDigits
  simp only
  split
  · rw [Nat.ofDigitChars_cons]
    exact Nat.ofDigitChars_ten_toDigits
  · exact Nat.ofDigitChars_ten_toDigits

theorem signed_natAbs (e : Int) : Text.Numeral.signed (decide (e < 0)) e.natAbs = e := by
  unfold Text.Numeral.signed
  by_cases h : e < 0
  · rw [if_pos (by simpa using h)]
    omega
  · rw [if_neg (by simpa using h)]
    omega

/-- Digits that are only parted make the number that they were. -/
theorem digitsValue_parted {l : Literal} {n : Nat} (h : l.whole ++ l.fraction = Nat.toDigits 10 n) : l.digitsValue = n := by
  rw [Literal.digitsValue, h]
  exact Nat.ofDigitChars_ten_toDigits

/-- Zeros in front of the digits add nothing. -/
theorem digitsValue_leading {l : Literal} {n k : Nat} (hwhole : l.whole = ['0'])
    (hfraction : l.fraction = List.replicate k '0' ++ Nat.toDigits 10 n) : l.digitsValue = n := by
  have hzero : Nat.ofDigitChars 10 ['0'] 0 = 0 := rfl
  rw [Literal.digitsValue, hwhole, hfraction, Nat.ofDigitChars_append, Nat.ofDigitChars_append, hzero,
    Nat.ofDigitChars_replicate_zero, Nat.mul_zero]
  exact Nat.ofDigitChars_ten_toDigits

/-- Zeros behind the digits, up to the point and the one after it, are powers of ten. -/
theorem digitsValue_padded {l : Literal} {n k : Nat} (hwhole : l.whole = Nat.toDigits 10 n ++ List.replicate k '0')
    (hfraction : l.fraction = ['0']) : l.digitsValue = 10 * (10 ^ k * n) := by
  have hzero : ∀ m : Nat, Nat.ofDigitChars 10 ['0'] m = 10 * m := fun m => rfl
  rw [Literal.digitsValue, hwhole, hfraction, Nat.ofDigitChars_append, Nat.ofDigitChars_append,
    Nat.ofDigitChars_ten_toDigits, Nat.ofDigitChars_replicate_zero, hzero]

/-- However digits are laid out, the literal is worth what the decimal is. -/
theorem ofDecimal_worth (negative : Bool) (d : Decimal) :
    ((Literal.ofDecimal negative d).digitsValue : ℚ) * 10 ^ (Literal.ofDecimal negative d).place =
      d.digits * 10 ^ (d.point - (toString d.digits).length) := by
  have hsome : 0 < (Nat.toDigits 10 d.digits).length := Nat.length_toDigits_pos
  rw [length_toString]
  unfold Literal.ofDecimal
  simp only
  split
  · split
    · rename_i hpoint
      rw [digitsValue_leading rfl rfl]
      congr 2
      simp only [Literal.place, List.length_append, List.length_replicate]
      omega
    · rename_i hpoint
      split
      · rename_i hshort
        have hexp : d.point - ((Nat.toDigits 10 d.digits).length : Int) =
            ((d.point.toNat - (Nat.toDigits 10 d.digits).length : Nat) : Int) := by omega
        rw [digitsValue_padded rfl rfl, hexp, zpow_natCast]
        simp only [Literal.place, List.length_singleton]
        push_cast
        norm_num
        ring
      · rename_i hlong
        rw [digitsValue_parted (List.take_append_drop _ _)]
        congr 2
        simp only [Literal.place, List.length_drop]
        omega
  · rw [digitsValue_parted (List.take_append_drop _ _)]
    congr 2
    simp only [Literal.place, exponentDigits_value, signed_natAbs, List.length_drop]
    omega

theorem ofDecimal_negative (negative : Bool) (d : Decimal) : (Literal.ofDecimal negative d).negative = negative := by
  unfold Literal.ofDecimal
  simp only
  split
  · split
    · rfl
    · split <;> rfl
  · rfl

theorem ofDecimal_isFloat (negative : Bool) (d : Decimal) :
    (Literal.ofDecimal negative d).fraction ≠ [] ∨ (Literal.ofDecimal negative d).exponent ≠ none := by
  unfold Literal.ofDecimal
  simp only
  split
  · split
    · exact .inl (by simp [Nat.toDigits_ne_nil])
    · split
      · exact .inl (List.cons_ne_nil _ _)
      · rename_i hlong
        refine .inl ?_
        rw [ne_eq, List.drop_eq_nil_iff]
        exact hlong
  · exact .inr (by simp)

/-- A number of the 64-bit format is worth itself where it is written. -/
theorem ofFinite_value {negative : Bool} {mantissa : Nat} {exponent : Int}
    (h : (Binary64.finite negative mantissa exponent).IsCanonical) :
    (Literal.ofFinite negative mantissa exponent).value = .ok (.float (.finite negative mantissa exponent)) := by
  unfold Literal.ofFinite
  split
  · rename_i hzero
    have hleast : exponent = leastExponent := by
      rcases h.2.2.2 with hfull | hleast
      · rw [hzero] at hfull
        exact absurd hfull (by decide)
      · exact hleast
    rw [hzero, hleast, Literal.value_of_float _ (.inl (List.cons_ne_nil _ _))]
    rfl
  · rename_i hnonzero
    obtain ⟨-, hnear⟩ := shortest_spec h (Nat.pos_of_ne_zero hnonzero)
    rw [← ofDecimal_worth negative] at hnear
    rw [Literal.value_of_float _ (ofDecimal_isFloat _ _), ofDecimal_negative, ofDecimal_eq h (Nat.pos_of_ne_zero hnonzero) hnear]

end Json

end ScriptedRobot
