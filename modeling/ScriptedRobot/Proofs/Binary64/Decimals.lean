import Mathlib
import ScriptedRobot.Binary64.Shortest
import ScriptedRobot.Proofs.Binary64.Rounding

/-!
# Shortest decimals

The shortest decimal of a number is one that is rounded to it (`shortest_spec`), and whatever decimal is
rounded to a number is read as that number (`ofDecimal_eq`).
-/

namespace ScriptedRobot.Binary64

/-! ## Decimals that are read -/

theorem length_toString (n : Nat) : (toString n).length = (Nat.toDigits 10 n).length := by
  rw [← String.length_toList]
  exact congrArg List.length Nat.toList_repr

theorem digits_bounds {n : Nat} (h : 0 < n) :
    (10 : ℚ) ^ (((toString n).length : Int) - 1) ≤ n ∧ (n : ℚ) < 10 ^ ((toString n).length : Int) := by
  have hpos : 0 < (Nat.toDigits 10 n).length := Nat.length_toDigits_pos
  rw [length_toString]
  constructor
  · obtain ⟨k, hk⟩ : ∃ k, (Nat.toDigits 10 n).length = k + 1 := ⟨_, (Nat.succ_pred_eq_of_pos hpos).symm⟩
    have hlow : 10 ^ k ≤ n := by
      by_cases hzero : k = 0
      · rw [hzero]
        exact h
      · by_contra hlt
        have hle := (Nat.length_toDigits_le_iff (b := 10) (by decide) (Nat.pos_of_ne_zero hzero)).2 (Nat.lt_of_not_le hlt)
        omega
    rw [hk, Nat.cast_add, Nat.cast_one, add_sub_cancel_right, zpow_natCast]
    exact_mod_cast hlow
  · rw [zpow_natCast]
    exact_mod_cast (Nat.length_toDigits_le_iff (by decide) hpos).1 (le_refl _)

/-- What is rounded to a number lies well within the magnitudes that are worked out. -/
theorem RoundsTo.bounds {negative : Bool} {m : Nat} {e : Int} {v : ℚ} (canonical : (finite negative m e).IsCanonical)
    (hm : 0 < m) (near : RoundsTo m e v) : (10 : ℚ) ^ (-400 : Int) ≤ v ∧ v < 10 ^ (400 : Int) := by
  obtain ⟨hsmall, hleast, hgreatest, -⟩ := canonical
  have hgap := gap_le m e
  have hpower : (0 : ℚ) < 2 ^ e := by positivity
  have hlow := near.low
  have hhigh := near.high
  constructor
  · have hpowers : (10 : ℚ) ^ (-400 : Int) ≤ 2 ^ (-1075 : Int) := by
      rw [zpow_neg, zpow_neg]
      refine inv_anti₀ (by positivity) ?_
      calc (2 : ℚ) ^ (1075 : Int) = (2 ^ 43) ^ 25 := by rw [← pow_mul]; rfl
        _ ≤ (10 ^ 16) ^ 25 := pow_le_pow_left₀ (by norm_num) (by norm_num) 25
        _ = 10 ^ (400 : Int) := by rw [← pow_mul]; rfl
    have hone : (1 : ℚ) ≤ m := by exact_mod_cast hm
    have hexponent : (2 : ℚ) ^ (-1074 : Int) ≤ 2 ^ e := zpow_le_zpow_right₀ (by norm_num) hleast
    have hhalf : (2 : ℚ) ^ (-1074 : Int) = 2 ^ (-1075 : Int) * 2 := by rw [← zpow_add_one₀ (by norm_num)]; rfl
    have hless : (1 / 2 : ℚ) * 2 ^ e ≤ (m - gap m e) * 2 ^ e := by
      gcongr
      linarith
    linarith
  · have hcast : (m : ℚ) + 1 ≤ 2 ^ 53 := by exact_mod_cast hsmall
    have hexponent : (2 : ℚ) ^ e ≤ 2 ^ (971 : Int) := zpow_le_zpow_right₀ (by norm_num) hgreatest
    calc v ≤ (m + 1 / 2) * 2 ^ e := hhigh
      _ < 2 ^ 53 * 2 ^ e := by gcongr; linarith
      _ ≤ 2 ^ 53 * 2 ^ (971 : Int) := by gcongr
      _ = (2 ^ 64) ^ 16 := by rw [← pow_mul]; exact (pow_add (2 : ℚ) 53 971).symm
      _ ≤ (10 ^ 25) ^ 16 := pow_le_pow_left₀ (by norm_num) (by norm_num) 16
      _ = 10 ^ (400 : Int) := by rw [← pow_mul]; rfl

/-- A decimal lies between the powers of ten that its digits and its place name. -/
theorem decimal_bounds {digits : Nat} (h : 0 < digits) (place : Int) :
    (10 : ℚ) ^ (((toString digits).length : Int) - 1 + place) ≤ digits * 10 ^ place ∧
      (digits * 10 ^ place : ℚ) < 10 ^ (((toString digits).length : Int) + place) := by
  have hten : (10 : ℚ) ≠ 0 := by norm_num
  have hpower : (0 : ℚ) < 10 ^ place := by positivity
  obtain ⟨hleast, hmost⟩ := digits_bounds h
  rw [zpow_add₀ hten, zpow_add₀ hten]
  exact ⟨mul_le_mul_of_nonneg_right hleast hpower.le, mul_lt_mul_of_pos_right hmost hpower⟩

theorem decimal_whole (digits k : Nat) :
    ((digits * Nat.pow 10 k : Nat) : ℚ) / (1 : Nat) = digits * 10 ^ (k : Int) := by
  rw [Nat.pow_eq, Nat.cast_one, div_one, zpow_natCast]
  push_cast
  rfl

theorem decimal_fraction (digits k : Nat) :
    (digits : ℚ) / (Nat.pow 10 k : Nat) = digits * 10 ^ (-(k : Int)) := by
  rw [Nat.pow_eq, zpow_neg, zpow_natCast, div_eq_mul_inv]
  push_cast
  rfl

theorem ofDecimal_eq {negative : Bool} {digits m : Nat} {place e : Int}
    (canonical : (finite negative m e).IsCanonical) (hm : 0 < m) (near : RoundsTo m e (digits * 10 ^ place)) :
    ofDecimal negative digits place = finite negative m e := by
  obtain ⟨hlow, hhigh⟩ := near.bounds canonical hm
  have hdigits : 0 < digits := by
    rw [Nat.pos_iff_ne_zero]
    rintro rfl
    rw [Nat.cast_zero, zero_mul] at hlow
    exact absurd hlow (not_le.2 (by positivity))
  obtain ⟨hleast, hmost⟩ := decimal_bounds hdigits place
  unfold ofDecimal
  simp only
  generalize ((toString digits).length : Int) = length at hleast hmost ⊢
  -- neither of the magnitudes at which the decimal is not worked out can be its own
  have hbelow : -400 < length + place := (zpow_lt_zpow_iff_right₀ (by norm_num)).1 (hlow.trans_lt hmost)
  have habove : length - 1 + place < 400 := (zpow_lt_zpow_iff_right₀ (by norm_num)).1 (hleast.trans_lt hhigh)
  rw [if_neg (by omega), if_neg (by omega)]
  split
  · rename_i hplace
    obtain ⟨k, rfl⟩ := Int.eq_ofNat_of_zero_le hplace
    refine ofFraction_eq canonical (Nat.mul_pos hdigits (Nat.pow_pos (by decide))) Nat.one_pos ?_
    rw [Int.toNat_natCast, decimal_whole]
    exact near
  · rename_i hplace
    obtain ⟨k, rfl⟩ : ∃ k : Nat, place = -(k : Int) := ⟨(-place).toNat, by omega⟩
    refine ofFraction_eq canonical hdigits (Nat.pow_pos (by decide)) ?_
    rw [Int.neg_neg, Int.toNat_natCast, decimal_fraction]
    exact near

/-! ## Powers as fractions -/

theorem zpow_eq_div {b : Nat} (hb : b ≠ 0) (e : Int) :
    (b : ℚ) ^ e = (Nat.pow b e.toNat : Nat) / (Nat.pow b (-e).toNat : Nat) := by
  have hne : (b : ℚ) ≠ 0 := by exact_mod_cast hb
  rcases Int.le_total 0 e with he | he
  · obtain ⟨k, rfl⟩ := Int.eq_ofNat_of_zero_le he
    have hzero : (-(k : Int)).toNat = 0 := by omega
    rw [hzero, Int.toNat_natCast, zpow_natCast, Nat.pow_eq, Nat.pow_eq, pow_zero, Nat.cast_one, div_one, Nat.cast_pow]
  · obtain ⟨k, rfl⟩ : ∃ k : Nat, e = -(k : Int) := ⟨(-e).toNat, by omega⟩
    have hzero : (-(k : Int)).toNat = 0 := by omega
    rw [hzero, Int.neg_neg, Int.toNat_natCast, zpow_neg, zpow_natCast, Nat.pow_eq, Nat.pow_eq, pow_zero, Nat.cast_one,
      one_div, Nat.cast_pow]

theorem powerOfTen_eq (place : Int) : (10 : ℚ) ^ place = ((powerOfTen place).1 : ℚ) / (powerOfTen place).2 :=
  zpow_eq_div (b := 10) (by decide) place

theorem powerOfTwo_eq (e : Int) : (2 : ℚ) ^ e = (Nat.pow 2 e.toNat : Nat) / (Nat.pow 2 (-e).toNat : Nat) :=
  zpow_eq_div (b := 2) (by decide) e

theorem powerOfTen_pos (place : Int) : 0 < (powerOfTen place).1 ∧ 0 < (powerOfTen place).2 :=
  ⟨Nat.pow_pos (by decide), Nat.pow_pos (by decide)⟩

/-! ## The interval of a number -/

section Interval

variable {m : Nat} {e : Int}

theorem interval_denominator_pos (m : Nat) (e : Int) : 0 < (interval m e).denominator :=
  Nat.mul_pos (by decide) (Nat.pow_pos (by decide))

theorem interval_value (m : Nat) (e : Int) :
    ((interval m e).value : ℚ) / (interval m e).denominator = m * 2 ^ e := by
  rw [powerOfTwo_eq]
  simp only [interval]
  push_cast
  field_simp

theorem interval_low (hm : 0 < m) : ((interval m e).low : ℚ) / (interval m e).denominator = (m - gap m e) * 2 ^ e := by
  rw [powerOfTwo_eq]
  have hpow : Nat.pow 2 (precision - 1) = 2 ^ (precision - 1) := rfl
  simp only [interval, gap, hpow]
  split
  · rw [Nat.cast_mul, Nat.cast_sub (by omega)]
    push_cast
    field_simp
  · rw [Nat.cast_mul, Nat.cast_sub (by omega)]
    push_cast
    field_simp
    ring

theorem interval_high (m : Nat) (e : Int) :
    ((interval m e).high : ℚ) / (interval m e).denominator = (m + 1 / 2) * 2 ^ e := by
  rw [powerOfTwo_eq]
  simp only [interval]
  push_cast
  field_simp
  ring

theorem cross_le {a b c d : Nat} (hb : 0 < b) (hd : 0 < d) : a * d ≤ c * b ↔ (a : ℚ) / b ≤ c / d := by
  have hb' : (0 : ℚ) < b := by exact_mod_cast hb
  have hd' : (0 : ℚ) < d := by exact_mod_cast hd
  rw [div_le_div_iff₀ hb' hd']
  exact_mod_cast Iff.rfl

theorem cross_lt {a b c d : Nat} (hb : 0 < b) (hd : 0 < d) : a * d < c * b ↔ (a : ℚ) / b < c / d := by
  have hb' : (0 : ℚ) < b := by exact_mod_cast hb
  have hd' : (0 : ℚ) < d := by exact_mod_cast hd
  rw [div_lt_div_iff₀ hb' hd']
  exact_mod_cast Iff.rfl

/-- The interval holds the fractions that are rounded to the number. -/
theorem interval_has_iff (hm : 0 < m) {num den : Nat} (hden : 0 < den) :
    (interval m e).has num den = true ↔ RoundsTo m e (num / den) := by
  have hdenominator := interval_denominator_pos m e
  have hclosed : (interval m e).closed = (m % 2 == 0) := rfl
  unfold Interval.has
  simp only [hclosed]
  by_cases heven : m % 2 = 0
  · rw [if_pos (by simp [heven]), Bool.and_eq_true, decide_eq_true_eq, decide_eq_true_eq, cross_le hdenominator hden,
      cross_le hden hdenominator, interval_low hm, interval_high]
    constructor
    · rintro ⟨hlow, hhigh⟩
      exact ⟨hlow, hhigh, fun hodd => by omega⟩
    · exact fun near => ⟨near.low, near.high⟩
  · rw [if_neg (by simp [heven]), Bool.and_eq_true, decide_eq_true_eq, decide_eq_true_eq, cross_lt hdenominator hden,
      cross_lt hden hdenominator, interval_low hm, interval_high]
    constructor
    · rintro ⟨hlow, hhigh⟩
      exact ⟨hlow.le, hhigh.le, fun _ => ⟨hlow, hhigh⟩⟩
    · exact fun near => near.odd (by omega)

/-! ## Grids of decimals -/

theorem onGrid?_pos {i : Interval} {place : Int} {n : Nat} (h : i.onGrid? place = some n) : 0 < n := by
  have hfound := List.find?_some h
  simp only [Bool.and_eq_true, decide_eq_true_eq] at hfound
  exact Nat.pos_of_ne_zero hfound.1

theorem onGrid?_near (hm : 0 < m) {place : Int} {n : Nat} (h : (interval m e).onGrid? place = some n) :
    RoundsTo m e (n * 10 ^ place) := by
  obtain ⟨hup, hdown⟩ := powerOfTen_pos place
  have hfound := List.find?_some h
  simp only [Bool.and_eq_true] at hfound
  have hnear := (interval_has_iff hm hdown).1 hfound.2
  rw [powerOfTen_eq, mul_div_assoc']
  exact_mod_cast hnear

theorem RoundsTo.of_strict {v : ℚ} (low : (m - gap m e) * 2 ^ e < v) (high : v < (m + 1 / 2) * 2 ^ e) : RoundsTo m e v :=
  ⟨low.le, high.le, fun _ => ⟨low, high⟩⟩

/-- The place of a number on a grid, between two neighbouring decimals. -/
theorem grid_bounds (m : Nat) (e place : Int) :
    let below := (interval m e).value * (powerOfTen place).2 / ((interval m e).denominator * (powerOfTen place).1)
    (below * 10 ^ place : ℚ) ≤ m * 2 ^ e ∧ (m * 2 ^ e : ℚ) < (below + 1) * 10 ^ place := by
  obtain ⟨hup, hdown⟩ := powerOfTen_pos place
  have hdenominator := interval_denominator_pos m e
  have hten : (0 : ℚ) < 10 ^ place := by positivity
  simp only
  set num := (interval m e).value * (powerOfTen place).2 with hnum
  set den := (interval m e).denominator * (powerOfTen place).1 with hden
  have hpos : 0 < den := Nat.mul_pos hdenominator hup
  have hpos' : (0 : ℚ) < den := by exact_mod_cast hpos
  have hunits : (m * 2 ^ e : ℚ) = num / den * 10 ^ place := by
    have hdown' : ((powerOfTen place).2 : ℚ) ≠ 0 := by exact_mod_cast hdown.ne'
    have hup' : ((powerOfTen place).1 : ℚ) ≠ 0 := by exact_mod_cast hup.ne'
    have hdenominator' : ((interval m e).denominator : ℚ) ≠ 0 := by exact_mod_cast hdenominator.ne'
    rw [← interval_value, powerOfTen_eq, hnum, hden]
    push_cast
    field_simp
  rw [hunits, mul_le_mul_iff_left₀ hten, mul_lt_mul_iff_left₀ hten]
  refine ⟨Nat.cast_div_le, ?_⟩
  rw [div_lt_iff₀ hpos']
  exact_mod_cast (Nat.div_lt_iff_lt_mul hpos).1 (Nat.lt_succ_self (num / den))

/-- On a grid that is fine enough, one of the two decimals next to a number is rounded to it. -/
theorem onGrid?_isSome (hm : 0 < m) {place : Int} (fine : (10 : ℚ) ^ place < 2 * gap m e * 2 ^ e) :
    ((interval m e).onGrid? place).isSome = true := by
  obtain ⟨hlow, hhigh⟩ := grid_bounds m e place
  obtain ⟨hup, hdown⟩ := powerOfTen_pos place
  have hten : (0 : ℚ) < 10 ^ place := by positivity
  have htwo : (0 : ℚ) < 2 ^ e := by positivity
  have hgap := gap_le m e
  have hone : (1 : ℚ) ≤ m := by exact_mod_cast hm
  have hpositive : (0 : ℚ) < (m - gap m e) * 2 ^ e := mul_pos (by linarith) htwo
  set below := (interval m e).value * (powerOfTen place).2 / ((interval m e).denominator * (powerOfTen place).1)
    with hbelow
  have hfound : ∀ n : Nat, n = below ∨ n = below + 1 → (m - gap m e) * 2 ^ e < (n * 10 ^ place : ℚ) →
      (n * 10 ^ place : ℚ) < (m + 1 / 2) * 2 ^ e → ((interval m e).onGrid? place).isSome = true := by
    intro n hn hover hunder
    have hnonzero : n ≠ 0 := by
      rintro rfl
      rw [Nat.cast_zero, zero_mul] at hover
      exact absurd hover (not_lt.2 hpositive.le)
    have hhas : (interval m e).has (n * (powerOfTen place).1) (powerOfTen place).2 = true := by
      rw [interval_has_iff hm hdown, Nat.cast_mul, ← mul_div_assoc', ← powerOfTen_eq]
      exact .of_strict hover hunder
    unfold Interval.onGrid?
    simp only [← hbelow, List.find?_isSome]
    refine ⟨n, ?_, by simp [hnonzero, hhas]⟩
    split <;> simp [hn, or_comm]
  by_cases hnearer : (m * 2 ^ e : ℚ) ≤ (below + 1 / 2) * 10 ^ place
  · refine hfound below (.inl rfl) ?_ ?_
    · linarith
    · linarith
  · refine hfound (below + 1) (.inr rfl) ?_ ?_
    · push_cast
      linarith
    · push_cast
      have hless : gap m e * 2 ^ e ≤ 1 / 2 * 2 ^ e := by gcongr
      linarith

/-! ## Digits in front of the point -/

/-- The estimate of the decimal exponent is hardly above the number. -/
theorem estimate_le {length : Int} (low : -1074 ≤ length) (high : length ≤ 1024) :
    (10 : ℚ) ^ ((length * 30103).fdiv 100000 - 2) ≤ 2 ^ length := by
  rw [Int.fdiv_eq_ediv_of_nonneg _ (by decide)]
  set estimate := length * 30103 / 100000 with hestimate
  have hten : (0 : ℚ) ≤ 10 ^ (estimate - 2) := by positivity
  have htwo : (0 : ℚ) ≤ 2 ^ length := by positivity
  rcases Int.le_total 0 length with hsign | hsign
  · -- ten powers of two are more than three powers of ten
    rw [← pow_le_pow_iff_left₀ hten htwo (by decide : 10 ≠ 0), ← zpow_natCast, ← zpow_natCast, ← zpow_mul, ← zpow_mul]
    obtain ⟨k, rfl⟩ := Int.eq_ofNat_of_zero_le hsign
    calc (10 : ℚ) ^ ((estimate - 2) * (10 : Nat)) ≤ 10 ^ ((3 * k : Nat) : Int) :=
          zpow_le_zpow_right₀ (by norm_num) (by push_cast; omega)
      _ = (10 ^ 3) ^ k := by rw [zpow_natCast, pow_mul]
      _ ≤ (2 ^ 10) ^ k := pow_le_pow_left₀ (by norm_num) (by norm_num) k
      _ = 2 ^ ((k : Int) * (10 : Nat)) := by rw [← pow_mul, mul_comm 10 k, ← Nat.cast_mul, zpow_natCast]
  · -- ninety-three powers of two are less than twenty-eight powers of ten
    rw [← pow_le_pow_iff_left₀ hten htwo (by decide : 93 ≠ 0), ← zpow_natCast, ← zpow_natCast, ← zpow_mul, ← zpow_mul]
    obtain ⟨k, rfl⟩ : ∃ k : Nat, length = -(k : Int) := ⟨(-length).toNat, by omega⟩
    have hmore : ((2 : ℚ) ^ 93) ^ k ≤ (10 ^ 28) ^ k := pow_le_pow_left₀ (by norm_num) (by norm_num) k
    calc (10 : ℚ) ^ ((estimate - 2) * (93 : Nat)) ≤ 10 ^ (-((28 * k : Nat) : Int)) :=
          zpow_le_zpow_right₀ (by norm_num) (by push_cast; omega)
      _ = ((10 ^ 28) ^ k)⁻¹ := by rw [zpow_neg, zpow_natCast, pow_mul]
      _ ≤ ((2 ^ 93) ^ k)⁻¹ := inv_anti₀ (by positivity) hmore
      _ = 2 ^ (-(k : Int) * (93 : Nat)) := by
          rw [← pow_mul, mul_comm 93 k, neg_mul, zpow_neg, ← Nat.cast_mul, zpow_natCast]

/-- The digits that a number is said to have in front of the point are not too many. -/
theorem point_le (hm : 0 < m) (low : -1074 ≤ (m.log2 : Int) + e) (high : (m.log2 : Int) + e ≤ 1024) :
    (10 : ℚ) ^ ((interval m e).point e m - 1) ≤ m * 2 ^ e := by
  have hestimate := estimate_le low high
  have hlog : (2 : ℚ) ^ ((m.log2 : Int) + e) ≤ m * 2 ^ e := by
    rw [zpow_add₀ (by norm_num)]
    gcongr
    exact (log2_bounds hm).1
  unfold Interval.point
  simp only
  set estimate := (((m.log2 : Int) + e) * 30103).fdiv 100000 with hdef
  -- wherever the power of ten is not above the number, it is at most the number
  have hnot : ∀ p : Int, decide ((interval m e).value * (powerOfTen p).2 < (interval m e).denominator * (powerOfTen p).1)
      = false → (10 : ℚ) ^ p ≤ m * 2 ^ e := by
    intro p hp
    rw [decide_eq_false_iff_not, Nat.not_lt, Nat.mul_comm (interval m e).denominator,
      cross_le (powerOfTen_pos p).2 (interval_denominator_pos m e), ← powerOfTen_eq, interval_value] at hp
    exact hp
  rw [List.find?_cons, List.find?_cons, List.find?_cons]
  split
  · rw [Option.getD_some]
    have hexp : estimate - 1 - 1 = estimate - 2 := by ring
    rw [hexp]
    exact hestimate.trans hlog
  · rename_i hfirst
    split
    · rw [Option.getD_some]
      exact hnot _ hfirst
    · rename_i hsecond
      split
      · rw [Option.getD_some, add_sub_cancel_right]
        exact hnot _ hsecond
      · rename_i hthird
        have hexp : estimate + 2 - 1 = estimate + 1 := by ring
        rw [List.find?_nil, Option.getD_none, hexp]
        exact hnot _ hthird

/-- Seventeen digits are always enough. -/
theorem onGrid?_seventeen {negative : Bool} (canonical : (finite negative m e).IsCanonical) (hm : 0 < m)
    {point : Int} (h : (10 : ℚ) ^ (point - 1) ≤ m * 2 ^ e) : ((interval m e).onGrid? (point - 17)).isSome = true := by
  obtain ⟨hsmall, -, -, -⟩ := canonical
  have htwo : (0 : ℚ) < 2 ^ e := by positivity
  have hsplit : (10 : ℚ) ^ (point - 17) = 10 ^ (point - 1) / 10 ^ 16 := by
    have hexp : point - 17 = point - 1 - (16 : Nat) := by push_cast; ring
    rw [hexp, zpow_sub₀ (by norm_num), zpow_natCast]
  refine onGrid?_isSome hm ?_
  rw [hsplit]
  unfold gap
  split
  · rename_i hnarrow
    have hfull : (m : ℚ) = 2 ^ 52 := by rw [hnarrow.1]; norm_num [precision]
    rw [hfull] at h
    rw [div_lt_iff₀ (by norm_num)]
    linarith
  · have hcast : (m : ℚ) ≤ 2 ^ 53 := by exact_mod_cast hsmall.le
    have hless : (m * 2 ^ e : ℚ) ≤ 2 ^ 53 * 2 ^ e := by gcongr
    rw [div_lt_iff₀ (by norm_num)]
    linarith

end Interval

/-! ## The shortest decimal -/

/-- Trailing zeros are taken off one by one. -/
theorem stripZeros_spec (fuel n : Nat) (h : 0 < n) : 0 < stripZeros fuel n ∧ ∃ k, n = stripZeros fuel n * 10 ^ k ∧
    (toString n).length = (toString (stripZeros fuel n)).length + k := by
  induction fuel generalizing n with
  | zero => exact ⟨h, 0, by rw [stripZeros, pow_zero, mul_one], rfl⟩
  | succ fuel ih =>
    rw [stripZeros]
    split
    · rename_i hzero
      obtain ⟨hpos, k, hvalue, hlength⟩ := ih (n / 10) (by omega)
      refine ⟨hpos, k + 1, ?_, ?_⟩
      · rw [pow_succ, ← mul_assoc, ← hvalue]
        omega
      · rw [length_toString n, Nat.toDigits_of_base_le (by decide) (by omega), List.length_append, ← length_toString,
          hlength, List.length_singleton, Nat.add_assoc]
    · exact ⟨h, 0, by rw [pow_zero, mul_one], rfl⟩

/-- The shortest decimal of a number is one that is rounded to it. -/
theorem shortest_spec {negative : Bool} {m : Nat} {e : Int} (canonical : (finite negative m e).IsCanonical) (hm : 0 < m) :
    0 < (shortest m e).digits ∧ RoundsTo m e
      ((shortest m e).digits * 10 ^ ((shortest m e).point - (toString (shortest m e).digits).length)) := by
  have hlog : m.log2 < 53 := (Nat.log2_lt hm.ne').2 canonical.1
  have hleast : -1074 ≤ e := canonical.2.1
  have hgreatest : e ≤ 971 := canonical.2.2.1
  have hpoint := point_le (e := e) hm (by omega) (by omega)
  have hsome := onGrid?_seventeen canonical hm hpoint
  unfold shortest
  simp only
  generalize (interval m e).point e m = point at hsome ⊢
  cases hfound : (List.range' 1 17).findSome? fun (count : Nat) =>
      ((interval m e).onGrid? (point - count)).map fun n => (n, count) with
  | none =>
    rw [List.findSome?_eq_none_iff] at hfound
    have hlast := hfound 17 (by decide)
    rw [Option.map_eq_none_iff] at hlast
    have hseventeen : ((17 : Nat) : Int) = 17 := rfl
    rw [hseventeen] at hlast
    rw [hlast] at hsome
    cases hsome
  | some found =>
    obtain ⟨n, count⟩ := found
    obtain ⟨place, -, hplace⟩ := List.exists_of_findSome?_eq_some hfound
    obtain ⟨candidate, hgrid, heq⟩ := Option.map_eq_some_iff.1 hplace
    cases heq
    have hnear := onGrid?_near hm hgrid
    obtain ⟨hpos, k, hvalue, hlength⟩ := stripZeros_spec 20 n (onGrid?_pos hgrid)
    refine ⟨hpos, ?_⟩
    have hexp : point + ((toString n).length - count) - (toString (stripZeros 20 n)).length = k + (point - count) := by
      rw [hlength]
      push_cast
      ring
    simp only
    rw [hexp, zpow_add₀ (by norm_num), ← mul_assoc, zpow_natCast]
    have hcast : (n : ℚ) = stripZeros 20 n * 10 ^ k := by exact_mod_cast hvalue
    rw [← hcast]
    exact hnear

end ScriptedRobot.Binary64
