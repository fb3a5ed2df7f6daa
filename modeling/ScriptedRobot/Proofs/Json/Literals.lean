import Mathlib
import ScriptedRobot.Json.Parser
import ScriptedRobot.Json.Printer
import ScriptedRobot.Proofs.Json.Strings
import ScriptedRobot.Proofs.Text.Numerals

/-!
# JSON numbers

A number is read back from its text if nothing follows it that could belong to it (`literal?_text`). What a
text that is cut off inside a number ends in is a shorter number, perhaps with something after it that is no
token (`Literal.cut`).
-/

namespace ScriptedRobot.Json

open Text

/-! ## Digits -/

/-- The text goes on with something that is no digit. -/
def NoDigit (rest : List Char) : Prop := ∀ c ∈ rest.head?, c.isDigit = false

theorem spanDigits_append {ds rest : List Char} (hds : ∀ d ∈ ds, d.isDigit = true) (hrest : NoDigit rest) :
    spanDigits (ds ++ rest) = (ds, rest) := by
  have hstop : rest.takeWhile Char.isDigit = [] ∧ rest.dropWhile Char.isDigit = rest := by
    cases rest with
    | nil => exact ⟨rfl, rfl⟩
    | cons c rest =>
      have hc : c.isDigit = false := hrest c rfl
      rw [List.takeWhile_cons, List.dropWhile_cons, hc]
      exact ⟨rfl, rfl⟩
  rw [spanDigits, List.takeWhile_append_of_pos hds, List.dropWhile_append_of_pos hds, hstop.1, hstop.2,
    List.append_nil]

/-- The digits are those of a number as it is written: at least one, and no zero in front of another. -/
structure IsWhole (ds : List Char) : Prop where
  digits : ∀ d ∈ ds, d.isDigit = true
  nonempty : ds ≠ []
  leading : ds.head? = some '0' → ds = ['0']

theorem IsWhole.part {ds part : List Char} (h : IsWhole ds) (hpart : part <+: ds) (nonempty : part ≠ []) :
    IsWhole part := by
  obtain ⟨more, rfl⟩ := hpart
  obtain ⟨d, part, rfl⟩ := List.exists_cons_of_ne_nil nonempty
  refine ⟨fun c hc => h.digits c (List.mem_append_left _ hc), nonempty, ?_⟩
  intro hhead
  have hall := h.leading hhead
  rw [List.cons_append, List.cons.injEq, List.append_eq_nil_iff] at hall
  rw [hall.1, hall.2.1]

/-- Only zero starts with a zero. -/
theorem head?_toDigits {n : Nat} (h : (Nat.toDigits 10 n).head? = some '0') : n = 0 := by
  induction n using Nat.strong_induction_on with
  | _ n ih =>
    by_cases small : n < 10
    · rw [Nat.toDigits_of_lt_base small] at h
      exact Nat.digitChar_eq_zero.1 (Option.some.inj h)
    · have hlarge : 10 ≤ n := Nat.le_of_not_lt small
      rw [Nat.toDigits_of_base_le (by decide) hlarge, List.head?_append_of_ne_nil _ Nat.toDigits_ne_nil] at h
      have hzero := ih (n / 10) (by omega) h
      omega

theorem isWhole_toDigits (n : Nat) : IsWhole (Nat.toDigits 10 n) := by
  refine ⟨fun d hd => Nat.isDigit_of_mem_toDigits (by decide) (by decide) hd, Nat.toDigits_ne_nil, ?_⟩
  intro hhead
  rw [head?_toDigits hhead]
  exact Nat.toDigits_zero 10

/-! ## Numbers and their texts -/

namespace Literal

/-- The point and the digits behind it. -/
def fractionText (l : Literal) : List Char := if l.fraction = [] then [] else '.' :: l.fraction

/-- The exponent with its sign. -/
def exponentText (l : Literal) : List Char :=
  match l.exponent with
  | none => []
  | some (negative, ds) => 'e' :: (if negative then '-' else '+') :: ds

/-- The sign. -/
def signText (l : Literal) : List Char := if l.negative then ['-'] else []

/-- How a number is written. -/
def text (l : Literal) : List Char := l.signText ++ (l.whole ++ (l.fractionText ++ l.exponentText))

/-- The parts of a number are made of digits as they should be. -/
structure IsProper (l : Literal) : Prop where
  whole : IsWhole l.whole
  fraction : ∀ d ∈ l.fraction, d.isDigit = true
  exponent : ∀ negative ds, l.exponent = some (negative, ds) → ds ≠ [] ∧ ∀ d ∈ ds, d.isDigit = true

end Literal

/-- What follows a number is nothing that could belong to it. -/
structure EndsNumber (rest : List Char) : Prop where
  noDigit : NoDigit rest
  fraction : fractionPart rest = ([], rest)
  exponent : exponentPart rest = (none, rest)

theorem endsNumber_nil : EndsNumber [] := by
  refine ⟨?_, rfl, rfl⟩
  intro c hc
  cases hc

theorem endsNumber_cons {c : Char} (h : c.isDigit = false) (point : c ≠ '.') (exponent : c ≠ 'e' ∧ c ≠ 'E')
    (rest : List Char) : EndsNumber (c :: rest) := by
  refine ⟨?_, ?_, ?_⟩
  · intro d hd
    rw [← Option.some.inj hd]
    exact h
  · unfold fractionPart
    split
    · rename_i heq
      exact absurd (List.cons.inj heq).1 point
    · rfl
  · simp [exponentPart, exponent.1, exponent.2]

theorem wholePart?_append {ds rest : List Char} (h : IsWhole ds) (hrest : NoDigit rest) :
    wholePart? (ds ++ rest) = some (ds, rest) := by
  obtain ⟨d, tail, rfl⟩ := List.exists_cons_of_ne_nil h.nonempty
  by_cases zero : d = '0'
  · have hall := h.leading (by rw [zero]; rfl)
    rw [hall]
    rfl
  · have hspan := spanDigits_append h.digits hrest
    unfold wholePart?
    split
    · rename_i heq
      exact absurd (List.cons.inj heq).1 zero
    · rw [hspan]

theorem fractionPart_append {l : Literal} (h : ∀ d ∈ l.fraction, d.isDigit = true) {rest : List Char}
    (hrest : NoDigit rest) (none : fractionPart rest = ([], rest)) :
    fractionPart (l.fractionText ++ rest) = (l.fraction, rest) := by
  unfold Literal.fractionText
  split
  · rename_i hempty
    rw [hempty]
    exact none
  · rename_i hdigits
    have hspan := spanDigits_append h hrest
    simp only [List.cons_append, fractionPart, hspan, List.isEmpty_iff, if_neg hdigits]

theorem exponentPart_append {l : Literal}
    (h : ∀ negative ds, l.exponent = some (negative, ds) → ds ≠ [] ∧ ∀ d ∈ ds, d.isDigit = true) {rest : List Char}
    (hrest : NoDigit rest) (none : exponentPart rest = (none, rest)) :
    exponentPart (l.exponentText ++ rest) = (l.exponent, rest) := by
  unfold Literal.exponentText
  split
  · rename_i hempty
    rw [hempty]
    exact none
  · rename_i negative ds hsome
    obtain ⟨hnonempty, hdigits⟩ := h negative ds hsome
    obtain ⟨d, tail, rfl⟩ := List.exists_cons_of_ne_nil hnonempty
    have hspan := spanDigits_append hdigits hrest
    rw [List.cons_append] at hspan
    cases negative <;> simp [exponentPart, hspan, hsome]

theorem Literal.exponentText_head {l : Literal} {rest : List Char} (hrest : EndsNumber rest) :
    NoDigit (l.exponentText ++ rest) ∧ fractionPart (l.exponentText ++ rest) = ([], l.exponentText ++ rest) := by
  unfold Literal.exponentText
  split
  · exact ⟨hrest.noDigit, hrest.fraction⟩
  · exact ⟨fun c hc => (Option.some.inj hc) ▸ by decide, rfl⟩

theorem Literal.fractionText_head {l : Literal} {rest : List Char} (hrest : NoDigit rest) :
    NoDigit (l.fractionText ++ rest) := by
  unfold Literal.fractionText
  split
  · exact hrest
  · exact fun c hc => (Option.some.inj hc) ▸ by decide

/-- A number that is written is read back. -/
theorem literal?_text {l : Literal} (h : l.IsProper) {rest : List Char} (hrest : EndsNumber rest) :
    literal? (l.text ++ rest) = some (l, rest) := by
  obtain ⟨hnoDigit, hnoFraction⟩ := Literal.exponentText_head (l := l) hrest
  have hwhole := wholePart?_append h.whole (Literal.fractionText_head (l := l) hnoDigit)
  have hfraction := fractionPart_append h.fraction hnoDigit hnoFraction
  have hexponent := exponentPart_append h.exponent hrest.noDigit hrest.exponent
  have hrun : ∀ negative, (wholePart? (l.whole ++ (l.fractionText ++ (l.exponentText ++ rest)))).bind (fun found =>
      some ((⟨negative, found.1, (fractionPart found.2).1, (exponentPart (fractionPart found.2).2).1⟩ : Literal),
        (exponentPart (fractionPart found.2).2).2)) =
        some (⟨negative, l.whole, l.fraction, l.exponent⟩, rest) := by
    intro negative
    rw [hwhole, Option.bind_some, hfraction, hexponent]
  unfold literal? Literal.text Literal.signText
  cases hsign : l.negative with
  | true =>
    simp only [if_true, List.append_assoc, List.cons_append, List.nil_append]
    exact (hrun true).trans (by rw [← hsign])
  | false =>
    obtain ⟨d, tail, hcons⟩ := List.exists_cons_of_ne_nil h.whole.nonempty
    have hd : d ≠ '-' := by
      rintro rfl
      have hdigit := h.whole.digits '-' (by rw [hcons]; exact List.mem_cons_self)
      cases hdigit
    simp only [Bool.false_eq_true, if_false, List.append_assoc, List.nil_append]
    split
    · rename_i minus
      rw [hcons] at minus
      exact absurd (List.cons.inj minus).1 hd
    · exact (hrun false).trans (by rw [← hsign])

/-! ## Numbers cut off -/

/-- What a number may break off with that belongs to no shorter number. -/
def looseEnds : List (List Char) := [[], ['.'], ['e'], ['e', '+'], ['e', '-']]

theorem endsNumber_of_loose {rest : List Char} (h : rest ∈ looseEnds) : EndsNumber rest := by
  simp only [looseEnds, List.mem_cons, List.not_mem_nil, or_false] at h
  rcases h with rfl | rfl | rfl | rfl | rfl
  · exact endsNumber_nil
  all_goals
    refine ⟨?_, rfl, rfl⟩
    intro c hc
    cases hc
    rfl

namespace Literal

variable {l : Literal} {part : List Char}

/-- The number goes on to the end of the text, or to a loose end that is none of it. -/
def Breaks (l : Literal) (part : List Char) : Prop :=
  ∃ (shorter : Literal) (rest : List Char), shorter.IsProper ∧ shorter.whole <+: l.whole ∧ rest ∈ looseEnds ∧
    part = shorter.text ++ rest

theorem IsProper.part_whole {ds : List Char} (h : l.IsProper) (hds : ds <+: l.whole) (nonempty : ds ≠ []) :
    IsProper ⟨l.negative, ds, [], none⟩ := by
  refine ⟨h.whole.part hds nonempty, ?_, ?_⟩
  · intro d hd
    cases hd
  · intro negative ds hnone
    cases hnone

theorem IsProper.part_fraction {ds : List Char} (h : l.IsProper) (hds : ds <+: l.fraction) :
    IsProper ⟨l.negative, l.whole, ds, none⟩ := by
  refine ⟨h.whole, fun d hd => h.fraction d (hds.subset hd), ?_⟩
  intro negative ds hnone
  cases hnone

theorem IsProper.part_exponent {negative : Bool} {all ds : List Char} (h : l.IsProper)
    (hall : l.exponent = some (negative, all)) (hds : ds <+: all) (nonempty : ds ≠ []) :
    IsProper ⟨l.negative, l.whole, l.fraction, some (negative, ds)⟩ := by
  refine ⟨h.whole, h.fraction, ?_⟩
  intro sign digits heq
  cases heq
  exact ⟨nonempty, fun d hd => (h.exponent negative all hall).2 d (hds.subset hd)⟩

/-- A number that breaks off after its whole part, in its fraction. -/
theorem IsProper.fraction_cut (h : l.IsProper) (front : part <+: l.fractionText) (short : part ≠ l.fractionText) :
    l.Breaks (l.signText ++ (l.whole ++ part)) := by
  have hsome : l.fraction ≠ [] := by
    intro hempty
    rw [fractionText, if_pos hempty] at front short
    exact short (List.prefix_nil.1 front)
  rw [fractionText, if_neg hsome] at front
  rcases List.prefix_cons_iff.1 front with rfl | ⟨ds, rfl, hds⟩
  · refine ⟨_, [], h.part_fraction List.nil_prefix, List.prefix_rfl, List.mem_cons_self, ?_⟩
    simp [text, signText, fractionText, exponentText]
  · by_cases hempty : ds = []
    · refine ⟨_, ['.'], h.part_fraction List.nil_prefix, List.prefix_rfl, by simp [looseEnds], ?_⟩
      simp [text, signText, fractionText, exponentText, hempty]
    · refine ⟨_, [], h.part_fraction hds, List.prefix_rfl, List.mem_cons_self, ?_⟩
      simp [text, signText, fractionText, exponentText, hempty]

/-- A number that breaks off after its fraction, in its exponent. -/
theorem IsProper.exponent_cut (h : l.IsProper) (front : part <+: l.exponentText) (short : part ≠ l.exponentText) :
    l.Breaks (l.signText ++ (l.whole ++ (l.fractionText ++ part))) := by
  cases hexponent : l.exponent with
  | none =>
    rw [exponentText, hexponent] at front short
    exact absurd (List.prefix_nil.1 front) short
  | some exponent =>
    obtain ⟨negative, all⟩ := exponent
    have hloose : ['e', if negative then '-' else '+'] ∈ looseEnds := by cases negative <;> simp [looseEnds]
    rw [exponentText, hexponent] at front
    rcases List.prefix_cons_iff.1 front with rfl | ⟨_, rfl, hsigned⟩
    · refine ⟨_, [], h.part_fraction List.prefix_rfl, List.prefix_rfl, List.mem_cons_self, ?_⟩
      simp [text, signText, fractionText, exponentText]
    rcases List.prefix_cons_iff.1 hsigned with rfl | ⟨ds, rfl, hds⟩
    · refine ⟨_, ['e'], h.part_fraction List.prefix_rfl, List.prefix_rfl, by simp [looseEnds], ?_⟩
      simp [text, signText, fractionText, exponentText]
    by_cases hempty : ds = []
    · refine ⟨_, _, h.part_fraction List.prefix_rfl, List.prefix_rfl, hloose, ?_⟩
      simp [text, signText, fractionText, exponentText, hempty]
    · refine ⟨_, [], h.part_exponent hexponent hds hempty, List.prefix_rfl, List.mem_cons_self, ?_⟩
      simp [text, signText, fractionText, exponentText]

theorem signText_cases (l : Literal) : l.signText = [] ∨ l.signText = ['-'] := by
  unfold signText
  split
  · exact .inr rfl
  · exact .inl rfl

/-- A number that is cut off leaves nothing, its sign alone, or a shorter number. -/
theorem cut (h : l.IsProper) (hpart : part <+: l.text) (short : part ≠ l.text) :
    part = [] ∨ part = ['-'] ∨ l.Breaks part := by
  rcases prefix_append_cases hpart with ⟨hbefore, hshort⟩ | ⟨more, rfl, hmore⟩
  · left
    rcases l.signText_cases with hsign | hsign
    · rw [hsign, List.prefix_nil] at hbefore
      exact hbefore
    · rw [hsign] at hbefore hshort
      rcases List.prefix_cons_iff.1 hbefore with rfl | ⟨rest, rfl, hrest⟩
      · rfl
      · rw [List.prefix_nil.1 hrest] at hshort
        exact absurd rfl hshort
  rcases prefix_append_cases hmore with ⟨hbefore, -⟩ | ⟨behind, rfl, hbehind⟩
  · by_cases hempty : more = []
    · rw [hempty, List.append_nil]
      rcases l.signText_cases with hsign | hsign
      · exact .inl hsign
      · exact .inr (.inl hsign)
    · refine .inr (.inr ⟨_, [], h.part_whole hbefore hempty, hbefore, List.mem_cons_self, ?_⟩)
      simp [text, signText, fractionText, exponentText]
  rcases prefix_append_cases hbehind with ⟨hbefore, hshort⟩ | ⟨last, rfl, hlast⟩
  · exact .inr (.inr (h.fraction_cut hbefore hshort))
  · have hshort : last ≠ l.exponentText := by
      rintro rfl
      exact short rfl
    exact .inr (.inr (h.exponent_cut hlast hshort))

/-! ## What numbers are worth -/

/-- A number that is not too long is worth something. -/
theorem value_ok (h : l.IsProper) (short : l.whole.length ≤ Numeral.digitLimit) : ∃ v, l.value = .ok v := by
  have hdigits : ∀ c ∈ l.whole, isDigit c = true := by
    intro c hc
    rw [isDigit, digitValue?_of_ascii (h.whole.digits c hc)]
    rfl
  have hlimit : ¬ Numeral.digitLimit < l.whole.length := Nat.not_lt.2 short
  unfold value
  split
  · cases l.negative with
    | true =>
      rw [if_pos rfl, read_negated hdigits h.whole.nonempty, if_neg hlimit]
      exact ⟨_, rfl⟩
    | false =>
      rw [if_neg Bool.false_ne_true, read_digits hdigits h.whole.nonempty, if_neg hlimit]
      exact ⟨_, rfl⟩
  · exact ⟨_, rfl⟩

/-- An integer as it is written. -/
def ofInt (n : Int) : Literal := ⟨decide (n < 0), Nat.toDigits 10 n.natAbs, [], none⟩

theorem ofInt_isProper (n : Int) : (ofInt n).IsProper := by
  refine ⟨isWhole_toDigits _, ?_, ?_⟩
  · intro d hd
    cases hd
  · intro negative ds hnone
    cases hnone

theorem ofInt_repr (n : Int) :
    (if (ofInt n).negative then '-' :: (ofInt n).whole else (ofInt n).whole) = n.repr.toList := by
  rcases intRepr_toList n with ⟨hsign, hrepr⟩ | ⟨hsign, hrepr⟩
  · have hnegative : (ofInt n).negative = false := by simpa [ofInt] using hsign
    rw [hrepr, hnegative, if_neg Bool.false_ne_true]
    rfl
  · have hnegative : (ofInt n).negative = true := by simpa [ofInt] using hsign
    rw [hrepr, hnegative, if_pos rfl]
    rfl

theorem ofInt_text (n : Int) : (ofInt n).text = (toString n).toList := by
  have hrepr : toString n = n.repr := rfl
  rw [hrepr, ← ofInt_repr]
  unfold text signText fractionText exponentText
  cases (ofInt n).negative <;> simp [ofInt]

/-- An integer that can be written is worth itself. -/
theorem ofInt_value {n : Int} (h : Numeral.isWritable n = true) : (ofInt n).value = .ok (int n) := by
  have hplain : (ofInt n).fraction.isEmpty ∧ (ofInt n).exponent.isNone := ⟨rfl, rfl⟩
  unfold value
  rw [if_pos hplain, ofInt_repr, read_intRepr h]
  rfl

theorem ofInt_short {n : Int} (h : Numeral.isWritable n = true) : (ofInt n).whole.length ≤ Numeral.digitLimit :=
  length_toDigits_le (of_decide_eq_true h)

end Literal

end ScriptedRobot.Json
