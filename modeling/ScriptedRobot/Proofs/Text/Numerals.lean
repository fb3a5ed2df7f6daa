import Mathlib
import ScriptedRobot.Text.Numeral

/-!
# Numerals made of digits

A numeral of digits alone, of whatever script and with or without a minus sign, is read as the number that
its digits stand for unless it has too many of them (`read_digits`, `read_negated`). What a number is
written as is such a numeral, and it is read as that number (`read_intRepr`).
-/

namespace ScriptedRobot.Text

/-- The number that decimal digits of any script stand for, the most significant first. -/
def decimal (cs : List Char) : Nat := Numeral.ofDigits 10 (cs.filterMap digitValue?)

/-! ## Digits -/

theorem trimWhere_eq_self {inClass : Char → Bool} {cs : List Char} (h : ∀ c ∈ cs, inClass c = false) :
    trimWhere inClass cs = cs := by
  have front : ∀ ds : List Char, (∀ c ∈ ds, inClass c = false) → ds.dropWhile inClass = ds := by
    intro ds hds
    rw [List.dropWhile_eq_self_iff]
    intro hlength
    have hhead := hds ds[0] (List.getElem_mem hlength)
    simp [hhead]
  rw [trimWhere, front cs h, front cs.reverse fun c hc => h c (List.mem_reverse.1 hc), List.reverse_reverse]

theorem digitValue?_of_ascii {c : Char} (h : c.isDigit = true) : digitValue? c = some (c.toNat - 48) := by
  have hrange : 48 ≤ c.toNat ∧ c.toNat ≤ 57 := Char.isDigit_iff_toNat.1 h
  have hzero : digitZeros.find? (fun start => start ≤ c.toNat && c.toNat ≤ start + 9) = some 48 := by
    unfold digitZeros
    rw [List.find?_cons_of_pos]
    simp [hrange]
  rw [digitValue?, hzero, Option.map_some]

theorem digitOf?_digitChar {d : Nat} (h : d < 10) : Numeral.digitOf? 10 (Nat.digitChar d) = some d := by
  have hall : ∀ d < 10, Numeral.digitOf? 10 (Nat.digitChar d) = some d := by decide
  exact hall d h

theorem not_blank_digitChar {d : Nat} (h : d < 10) : isWhiteSpace (Nat.digitChar d) = false := by
  have hall : ∀ d < 10, isWhiteSpace (Nat.digitChar d) = false := by decide
  exact hall d h

/-- Digits become plain by their values. -/
theorem plainDigits_eq {cs : List Char} (h : ∀ c ∈ cs, isDigit c = true) :
    Numeral.plainDigits cs = (cs.filterMap digitValue?).map Nat.digitChar := by
  induction cs with
  | nil => rfl
  | cons c cs ih =>
    obtain ⟨v, hv⟩ := Option.isSome_iff_exists.1 (h c List.mem_cons_self)
    have hrest := ih fun d hd => h d (List.mem_cons_of_mem _ hd)
    rw [List.filterMap_cons_some hv, List.map_cons, ← hrest]
    simp [Numeral.plainDigits, hv]

theorem length_filterMap_digitValue? {cs : List Char} (h : ∀ c ∈ cs, isDigit c = true) :
    (cs.filterMap digitValue?).length = cs.length := by
  have hplain := congrArg List.length (plainDigits_eq h)
  simpa [Numeral.plainDigits] using hplain.symm

theorem filterMap_digitValue?_ne_nil {cs : List Char} (h : ∀ c ∈ cs, isDigit c = true) (nonempty : cs ≠ []) :
    cs.filterMap digitValue? ≠ [] := by
  intro hnil
  have hlength := length_filterMap_digitValue? h
  rw [hnil] at hlength
  exact nonempty (List.length_eq_zero_iff.1 hlength.symm)

theorem lt_ten_of_mem {cs : List Char} {v : Nat} (h : v ∈ cs.filterMap digitValue?) : v < 10 := by
  obtain ⟨c, -, hc⟩ := List.mem_filterMap.1 h
  exact digitValue?_lt hc

theorem digitRun_digitChars {vs : List Nat} (h : ∀ v ∈ vs, v < 10) :
    Numeral.digitRun 10 (vs.map Nat.digitChar) = some (vs, []) := by
  induction vs with
  | nil => rfl
  | cons v vs ih =>
    have hv := digitOf?_digitChar (h v List.mem_cons_self)
    have hrest := ih fun w hw => h w (List.mem_cons_of_mem _ hw)
    simp [Numeral.digitRun, hv, hrest]

/-- Digits stand for less than the power of ten with so many zeros. -/
theorem ofDigits_lt {vs : List Nat} (h : ∀ v ∈ vs, v < 10) : Numeral.ofDigits 10 vs < 10 ^ vs.length := by
  have hfold : ∀ n : Nat, vs.foldl (fun n d => n * 10 + d) n < (n + 1) * 10 ^ vs.length := by
    induction vs with
    | nil => intro n; simp
    | cons v vs ih =>
      intro n
      have hv := h v List.mem_cons_self
      have hrest := ih (fun w hw => h w (List.mem_cons_of_mem _ hw)) (n * 10 + v)
      have hstep : (n * 10 + v + 1) * 10 ^ vs.length ≤ (n + 1) * 10 * 10 ^ vs.length :=
        Nat.mul_le_mul_right _ (by omega)
      calc vs.foldl (fun n d => n * 10 + d) (n * 10 + v)
          < (n * 10 + v + 1) * 10 ^ vs.length := hrest
        _ ≤ (n + 1) * 10 * 10 ^ vs.length := hstep
        _ = (n + 1) * 10 ^ (vs.length + 1) := by rw [Nat.pow_succ, Nat.mul_assoc, Nat.mul_comm 10]
  simpa [Numeral.ofDigits] using hfold 0

/-! ## Reading -/

/-- What is read once blanks, script and sign are out of the way. -/
theorem digits?_digitChars {vs : List Nat} (h : ∀ v ∈ vs, v < 10) (nonempty : vs ≠ []) :
    Numeral.digits? 10 (vs.map Nat.digitChar) = some (vs, []) := by
  obtain ⟨v, rest, rfl⟩ := List.exists_cons_of_ne_nil nonempty
  have hv := digitOf?_digitChar (h v List.mem_cons_self)
  unfold Numeral.digits?
  rw [if_pos (by simp [hv])]
  exact digitRun_digitChars h

theorem read_of_takeSign {text : List Char} {negative : Bool} {vs : List Nat} (h : ∀ v ∈ vs, v < 10)
    (nonempty : vs ≠ [])
    (sign : Numeral.takeSign (trimWhere isWhiteSpace (Numeral.plainDigits text)) =
      (negative, vs.map Nat.digitChar)) :
    Numeral.read text =
      if Numeral.digitLimit < vs.length then .error (.tooLong vs.length)
      else .ok (Numeral.signed negative (Numeral.ofDigits 10 vs)) := by
  unfold Numeral.read
  simp only [sign, digits?_digitChars h nonempty, gt_iff_lt, ne_eq, not_true_eq_false, if_false]

theorem read_digits {cs : List Char} (h : ∀ c ∈ cs, isDigit c = true) (nonempty : cs ≠ []) :
    Numeral.read cs = if Numeral.digitLimit < cs.length then .error (.tooLong cs.length)
      else .ok (decimal cs) := by
  have hvalues := filterMap_digitValue?_ne_nil h nonempty
  have hsign : Numeral.takeSign (trimWhere isWhiteSpace (Numeral.plainDigits cs)) =
      (false, (cs.filterMap digitValue?).map Nat.digitChar) := by
    rw [plainDigits_eq h, trimWhere_eq_self]
    · obtain ⟨v, rest, hcons⟩ := List.exists_cons_of_ne_nil hvalues
      have hmem : v ∈ cs.filterMap digitValue? := hcons ▸ List.mem_cons_self
      have hv : v < 10 := lt_ten_of_mem hmem
      have hplain : ∀ v < 10, Nat.digitChar v ≠ '-' ∧ Nat.digitChar v ≠ '+' := by decide
      obtain ⟨hminus, hplus⟩ := hplain v hv
      rw [hcons, List.map_cons]
      unfold Numeral.takeSign
      split
      · rename_i heq
        exact absurd (List.cons.inj heq).1 hminus
      · rename_i heq
        exact absurd (List.cons.inj heq).1 hplus
      · rfl
    · intro c hc
      obtain ⟨v, hv, rfl⟩ := List.mem_map.1 hc
      exact not_blank_digitChar (lt_ten_of_mem hv)
  rw [read_of_takeSign (fun v hv => lt_ten_of_mem hv) hvalues hsign,
    length_filterMap_digitValue? h]
  rfl

theorem read_negated {cs : List Char} (h : ∀ c ∈ cs, isDigit c = true) (nonempty : cs ≠ []) :
    Numeral.read ('-' :: cs) = if Numeral.digitLimit < cs.length then .error (.tooLong cs.length)
      else .ok (-(decimal cs : Int)) := by
  have hvalues := filterMap_digitValue?_ne_nil h nonempty
  have hsign : Numeral.takeSign (trimWhere isWhiteSpace (Numeral.plainDigits ('-' :: cs))) =
      (true, (cs.filterMap digitValue?).map Nat.digitChar) := by
    have hcons : Numeral.plainDigits ('-' :: cs) = '-' :: Numeral.plainDigits cs := rfl
    rw [hcons, plainDigits_eq h, trimWhere_eq_self]
    · rfl
    · intro c hc
      rcases List.mem_cons.1 hc with rfl | hc
      · rfl
      · obtain ⟨v, hv, rfl⟩ := List.mem_map.1 hc
        exact not_blank_digitChar (lt_ten_of_mem hv)
  rw [read_of_takeSign (fun v hv => lt_ten_of_mem hv) hvalues hsign,
    length_filterMap_digitValue? h]
  rfl

theorem writeBound_eq : Numeral.writeBound = 10 ^ Numeral.digitLimit := by
  unfold Numeral.writeBound
  generalize Numeral.digitLimit = limit
  rfl

/-- What few enough digits stand for can be written. -/
theorem decimal_lt_writeBound {cs : List Char} (h : ∀ c ∈ cs, isDigit c = true)
    (short : cs.length ≤ Numeral.digitLimit) : decimal cs < Numeral.writeBound := by
  have hlt : decimal cs < 10 ^ (cs.filterMap digitValue?).length := ofDigits_lt fun v hv => lt_ten_of_mem hv
  rw [length_filterMap_digitValue? h] at hlt
  rw [writeBound_eq]
  exact Nat.lt_of_lt_of_le hlt (Nat.pow_le_pow_right (by decide) short)

/-! ## Numbers as they are written -/

theorem isDigit_of_mem_toDigits {n : Nat} {c : Char} (h : c ∈ Nat.toDigits 10 n) : isDigit c = true := by
  have hascii : c.isDigit = true := Nat.isDigit_of_mem_toDigits (by decide) (by decide) h
  rw [isDigit, digitValue?_of_ascii hascii]
  rfl

/-- A number is not written as nothing. -/
theorem toDigits_eq_cons (n : Nat) : ∃ d ds, Nat.toDigits 10 n = d :: ds ∧ d.isDigit = true := by
  obtain ⟨d, ds, hcons⟩ := List.exists_cons_of_ne_nil (Nat.toDigits_ne_nil (n := n) (b := 10))
  have hmem : d ∈ Nat.toDigits 10 n := hcons ▸ List.mem_cons_self
  exact ⟨d, ds, hcons, Nat.isDigit_of_mem_toDigits (by decide) (by decide) hmem⟩

theorem decimal_toDigits (n : Nat) : decimal (Nat.toDigits 10 n) = n := by
  have hfold : ∀ (cs : List Char) (k : Nat), (∀ c ∈ cs, c.isDigit = true) →
      (cs.filterMap digitValue?).foldl (fun n d => n * 10 + d) k = Nat.ofDigitChars 10 cs k := by
    intro cs
    induction cs with
    | nil => intro k _; rfl
    | cons c cs ih =>
      intro k hcs
      have hc := digitValue?_of_ascii (hcs c List.mem_cons_self)
      rw [List.filterMap_cons_some hc, List.foldl_cons, ih _ fun d hd => hcs d (List.mem_cons_of_mem _ hd),
        Nat.ofDigitChars_eq_foldl, Nat.ofDigitChars_eq_foldl, List.foldl_cons, Nat.mul_comm k 10]
      rfl
  have hdigits := hfold (Nat.toDigits 10 n) 0 fun c hc => Nat.isDigit_of_mem_toDigits (by decide) (by decide) hc
  rw [decimal, Numeral.ofDigits, hdigits]
  exact Nat.ofDigitChars_toDigits (by decide) (by decide)

theorem length_toDigits_le {n : Nat} (h : n < Numeral.writeBound) :
    (Nat.toDigits 10 n).length ≤ Numeral.digitLimit := by
  rw [writeBound_eq] at h
  exact (Nat.length_toDigits_le_iff (by decide) (by decide)).2 h

theorem intRepr_toList (n : Int) :
    0 ≤ n ∧ n.repr.toList = Nat.toDigits 10 n.natAbs ∨ n < 0 ∧ n.repr.toList = '-' :: Nat.toDigits 10 n.natAbs := by
  cases n with
  | ofNat n =>
    have hrepr : (Int.ofNat n).repr = n.repr := rfl
    refine .inl ⟨Int.natCast_nonneg n, ?_⟩
    rw [hrepr, Nat.repr_eq_ofList_toDigits, String.toList_ofList]
    rfl
  | negSucc n =>
    have hsign : (Int.negSucc n).repr.toList = '-' :: (n + 1).repr.toList := String.toList_append
    refine .inr ⟨Int.negSucc_lt_zero n, ?_⟩
    rw [hsign, Nat.repr_eq_ofList_toDigits, String.toList_ofList]
    rfl

/-- A number that can be written is read back from its text. -/
theorem read_intRepr {n : Int} (h : Numeral.isWritable n = true) : Numeral.read n.repr.toList = .ok n := by
  have hbound : n.natAbs < Numeral.writeBound := of_decide_eq_true h
  have hdigits : ∀ c ∈ Nat.toDigits 10 n.natAbs, isDigit c = true := fun c hc => isDigit_of_mem_toDigits hc
  have hshort := length_toDigits_le hbound
  rcases intRepr_toList n with ⟨hsign, hrepr⟩ | ⟨hsign, hrepr⟩
  · have hvalue : (n.natAbs : Int) = n := Int.natAbs_of_nonneg hsign
    rw [hrepr, read_digits hdigits Nat.toDigits_ne_nil, if_neg (by omega), decimal_toDigits, hvalue]
  · have hvalue : -(n.natAbs : Int) = n := by omega
    rw [hrepr, read_negated hdigits Nat.toDigits_ne_nil, if_neg (by omega), decimal_toDigits, hvalue]

end ScriptedRobot.Text
