import Mathlib
import ScriptedRobot.Binary64

/-!
# Rounding to 64-bit numbers

A number is what every fraction that lies near enough to it is rounded to (`ofFraction_eq`): nothing but the
value of the fraction counts, and an end half-way to a neighbour counts for the even mantissa.
-/

namespace ScriptedRobot.Binary64

/-- The number is one of the 64-bit format: its mantissa is full unless its exponent is the least. -/
def IsCanonical : Binary64 → Prop
  | finite _ mantissa exponent => mantissa < 2 ^ precision ∧ leastExponent ≤ exponent ∧ exponent ≤ greatestExponent ∧
      (2 ^ (precision - 1) ≤ mantissa ∨ exponent = leastExponent)
  | _ => True

/-- How far below a number those lie that are rounded to it, in units of its last place. Below a power of two
the numbers lie twice as close. -/
def gap (mantissa : Nat) (exponent : Int) : ℚ :=
  if mantissa = 2 ^ (precision - 1) ∧ exponent > leastExponent then 1 / 4 else 1 / 2

/-- The rational lies near enough to `mantissa * 2 ^ exponent` to be rounded to it. -/
structure RoundsTo (mantissa : Nat) (exponent : Int) (v : ℚ) : Prop where
  low : (mantissa - gap mantissa exponent) * 2 ^ exponent ≤ v
  high : v ≤ (mantissa + 1 / 2) * 2 ^ exponent
  odd : mantissa % 2 = 1 → (mantissa - gap mantissa exponent) * 2 ^ exponent < v ∧ v < (mantissa + 1 / 2) * 2 ^ exponent

/-! ## Nearest integers -/

theorem divRoundEven_eq {n d m : Nat} (hd : 0 < d) (low : 2 * (m * d) ≤ 2 * n + d) (high : 2 * n ≤ 2 * (m * d) + d)
    (odd : m % 2 = 1 → 2 * (m * d) < 2 * n + d ∧ 2 * n < 2 * (m * d) + d) : divRoundEven n d = m := by
  have hsplit := Nat.div_add_mod n d
  have hrest := Nat.mod_lt n hd
  unfold divRoundEven
  simp only
  generalize n / d = q at hsplit ⊢
  generalize n % d = r at hsplit hrest ⊢
  subst hsplit
  have hcases : m = q ∨ m = q + 1 := by
    have hupper : m < q + 2 := by
      by_contra hge
      have hmul := Nat.mul_le_mul_right d (Nat.le_of_not_lt hge)
      rw [Nat.add_mul, Nat.mul_comm q d] at hmul
      omega
    have hlower : q < m + 1 := by
      by_contra hge
      have hmul := Nat.mul_le_mul_right d (Nat.le_of_not_lt hge)
      rw [Nat.add_mul, Nat.mul_comm q d] at hmul
      omega
    omega
  rcases hcases with rfl | rfl
  · rw [Nat.mul_comm d m] at *
    have hkeep : ¬ (2 * r > d ∨ 2 * r = d ∧ m % 2 = 1) := by
      rintro (hmore | ⟨htie, hodd⟩)
      · omega
      · have := odd hodd
        omega
    rw [if_neg hkeep]
  · rw [Nat.add_mul, Nat.one_mul, Nat.mul_comm d q] at *
    have hup : 2 * r > d ∨ 2 * r = d ∧ q % 2 = 1 := by
      by_cases htie : 2 * r = d
      · refine .inr ⟨htie, ?_⟩
        by_contra heven
        have := odd (by omega)
        omega
      · exact .inl (by omega)
    rw [if_pos hup]

/-! ## Scaling -/

theorem scaled_eq (num den : Nat) (shift : Int) :
    ((scaled num den shift).1 : ℚ) / (scaled num den shift).2 = num / den * 2 ^ shift := by
  unfold scaled
  split
  · rename_i hshift
    obtain ⟨k, rfl⟩ := Int.eq_ofNat_of_zero_le hshift
    have hpow : ((Nat.pow 2 k : Nat) : ℚ) = 2 ^ k := by rw [Nat.pow_eq, Nat.cast_pow, Nat.cast_ofNat]
    simp only [Int.toNat_natCast, Nat.cast_mul, hpow, zpow_natCast]
    ring
  · rename_i hshift
    obtain ⟨k, rfl⟩ : ∃ k : Nat, shift = -(k : Int) := ⟨(-shift).toNat, by omega⟩
    have hpow : ((Nat.pow 2 k : Nat) : ℚ) = 2 ^ k := by rw [Nat.pow_eq, Nat.cast_pow, Nat.cast_ofNat]
    simp only [Int.neg_neg, Int.toNat_natCast, Nat.cast_mul, hpow, zpow_neg, zpow_natCast]
    rw [div_mul_eq_div_div]
    ring

theorem scaled_pos (num : Nat) {den : Nat} (h : 0 < den) (shift : Int) : 0 < (scaled num den shift).2 := by
  unfold scaled
  split
  · exact h
  · exact Nat.mul_pos h (Nat.pow_pos (by decide))

/-! ## The exponent -/

/-- With this exponent the rational has a mantissa of full length, unless the exponent is the least. -/
structure Fits (v : ℚ) (e : Int) : Prop where
  least : leastExponent ≤ e
  high : v < 2 ^ (precision + e)
  low : e = leastExponent ∨ 2 ^ (precision - 1 + e) ≤ v

theorem Fits.unique {v : ℚ} {e e' : Int} (h : Fits v e) (h' : Fits v e') : e = e' := by
  have hless : ∀ {a b : Int}, Fits v a → Fits v b → ¬ a < b := by
    intro a b ha hb hlt
    rcases hb.low with hleast | hlow
    · have := ha.least
      omega
    · have hpow : (2 : ℚ) ^ (precision + a : Int) ≤ 2 ^ (precision - 1 + b : Int) :=
        zpow_le_zpow_right₀ (by norm_num) (by omega)
      exact absurd (ha.high.trans_le hpow) (not_lt.2 hlow)
  have hnot := hless h h'
  have hnot' := hless h' h
  omega

/-- The exponent that a fraction is rounded with. -/
def fractionExponent (num den : Nat) : Int :=
  let guess : Int := max ((num.log2 : Int) - den.log2 - precision) leastExponent
  if (scaled num den (-guess)).1 / (scaled num den (-guess)).2 ≥ Nat.pow 2 precision then guess + 1 else guess

theorem log2_bounds {n : Nat} (h : 0 < n) : (2 : ℚ) ^ (n.log2 : Int) ≤ n ∧ (n : ℚ) < 2 ^ ((n.log2 : Int) + 1) := by
  have hlow := Nat.log2_self_le h.ne'
  have hhigh := Nat.lt_log2_self (n := n)
  refine ⟨?_, ?_⟩
  · rw [zpow_natCast]
    exact_mod_cast hlow
  · have hexp : ((n.log2 : Int) + 1) = ((n.log2 + 1 : Nat) : Int) := by push_cast; rfl
    rw [hexp, zpow_natCast]
    exact_mod_cast hhigh

/-- The lengths of numerator and denominator give the size of a fraction up to a factor of two. -/
theorem fraction_bounds {num den : Nat} (hnum : 0 < num) (hden : 0 < den) :
    (2 : ℚ) ^ ((num.log2 : Int) - den.log2 - 1) < num / den ∧ (num / den : ℚ) < 2 ^ ((num.log2 : Int) - den.log2 + 1) := by
  obtain ⟨hnumLow, hnumHigh⟩ := log2_bounds hnum
  obtain ⟨hdenLow, hdenHigh⟩ := log2_bounds hden
  have hpos : (0 : ℚ) < den := by exact_mod_cast hden
  have htwo : (2 : ℚ) ≠ 0 := by norm_num
  constructor
  · rw [lt_div_iff₀ hpos]
    calc (2 : ℚ) ^ ((num.log2 : Int) - den.log2 - 1) * den
        < 2 ^ ((num.log2 : Int) - den.log2 - 1) * 2 ^ ((den.log2 : Int) + 1) := by gcongr
      _ = 2 ^ (num.log2 : Int) := by rw [← zpow_add₀ htwo]; congr 1; ring
      _ ≤ num := hnumLow
  · rw [div_lt_iff₀ hpos]
    calc (num : ℚ) < 2 ^ ((num.log2 : Int) + 1) := hnumHigh
      _ = 2 ^ ((num.log2 : Int) - den.log2 + 1) * 2 ^ (den.log2 : Int) := by rw [← zpow_add₀ htwo]; congr 1; ring
      _ ≤ 2 ^ ((num.log2 : Int) - den.log2 + 1) * den := by gcongr

theorem le_scaled_div_iff {num den : Nat} (hden : 0 < den) (e : Int) (k : Nat) :
    Nat.pow 2 k ≤ (scaled num den (-e)).1 / (scaled num den (-e)).2 ↔ (2 : ℚ) ^ (k + e) ≤ num / den := by
  have hscaled := scaled_eq num den (-e)
  have hden' := scaled_pos num hden (-e)
  have hpos : (0 : ℚ) < (scaled num den (-e)).2 := by exact_mod_cast hden'
  have hpower : (0 : ℚ) < 2 ^ e := by positivity
  calc Nat.pow 2 k ≤ (scaled num den (-e)).1 / (scaled num den (-e)).2
      ↔ 2 ^ k * (scaled num den (-e)).2 ≤ (scaled num den (-e)).1 := Nat.le_div_iff_mul_le hden'
    _ ↔ (2 : ℚ) ^ k ≤ (scaled num den (-e)).1 / (scaled num den (-e)).2 := by
        rw [le_div_iff₀ hpos]
        exact_mod_cast Iff.rfl
    _ ↔ (2 : ℚ) ^ k ≤ num / den * 2 ^ (-e) := by rw [hscaled]
    _ ↔ (2 : ℚ) ^ (k + e) ≤ num / den := by
        rw [zpow_neg, ← div_eq_mul_inv, le_div_iff₀ hpower, zpow_add₀ (by norm_num), zpow_natCast]

theorem fractionExponent_fits {num den : Nat} (hnum : 0 < num) (hden : 0 < den) :
    Fits (num / den) (fractionExponent num den) := by
  obtain ⟨hlow, hhigh⟩ := fraction_bounds hnum hden
  have hprecision : (precision : Int) = 53 := rfl
  have hmono : ∀ {a b : Int}, a ≤ b → (2 : ℚ) ^ a ≤ 2 ^ b := fun h => zpow_le_zpow_right₀ (by norm_num) h
  unfold fractionExponent
  simp only [ge_iff_le, le_scaled_div_iff hden]
  generalize (num.log2 : Int) - den.log2 = length at hlow hhigh ⊢
  by_cases small : length - precision < leastExponent
  · -- the least exponent is enough
    rw [max_eq_right small.le]
    have hfits : (num / den : ℚ) < 2 ^ (precision + leastExponent) := hhigh.trans_le (hmono (by omega))
    rw [if_neg (not_le.2 hfits)]
    exact ⟨le_refl _, hfits, .inl rfl⟩
  · rw [max_eq_left (by omega)]
    split
    · rename_i hlarge
      exact ⟨by omega, hhigh.trans_le (hmono (by omega)), .inr ((hmono (by omega)).trans hlarge)⟩
    · rename_i hsmall
      exact ⟨by omega, not_le.1 hsmall, .inr ((hmono (by omega)).trans hlow.le)⟩

/-! ## The number -/

/-- A number, or infinity if its exponent is too large. -/
def bounded (negative : Bool) (mantissa : Nat) (exponent : Int) : Binary64 :=
  if exponent > greatestExponent then infinite negative else finite negative mantissa exponent

theorem ofFraction_of_fits {negative : Bool} {num den : Nat} {e : Int} (hnum : 0 < num) (hden : 0 < den)
    (fits : Fits (num / den) e) : ofFraction negative num den =
      let mantissa := divRoundEven (scaled num den (-e)).1 (scaled num den (-e)).2
      let found := if mantissa = Nat.pow 2 precision then (Nat.pow 2 (precision - 1), e + 1) else (mantissa, e)
      bounded negative found.1 found.2 := by
  have he := (fractionExponent_fits hnum hden).unique fits
  rw [← he]
  unfold ofFraction bounded fractionExponent
  simp only

/-- The mantissa with a given exponent. -/
theorem divRoundEven_scaled {num den m : Nat} {e : Int} (hden : 0 < den)
    (low : ((m : ℚ) - 1 / 2) * 2 ^ e ≤ num / den) (high : (num / den : ℚ) ≤ (m + 1 / 2) * 2 ^ e)
    (odd : m % 2 = 1 → ((m : ℚ) - 1 / 2) * 2 ^ e < num / den ∧ (num / den : ℚ) < (m + 1 / 2) * 2 ^ e) :
    divRoundEven (scaled num den (-e)).1 (scaled num den (-e)).2 = m := by
  have hscaled := scaled_eq num den (-e)
  have hden' := scaled_pos num hden (-e)
  have hpos : (0 : ℚ) < (scaled num den (-e)).2 := by exact_mod_cast hden'
  have hpower : (0 : ℚ) < 2 ^ e := by positivity
  have hvalue : (num / den : ℚ) = (scaled num den (-e)).1 / (scaled num den (-e)).2 * 2 ^ e := by
    rw [hscaled, mul_assoc, ← zpow_add₀ (by norm_num), neg_add_cancel, zpow_zero, mul_one]
  generalize (scaled num den (-e)).1 = n at hvalue ⊢
  generalize (scaled num den (-e)).2 = d at hvalue hden' hpos ⊢
  rw [hvalue] at low high odd
  rw [mul_le_mul_iff_left₀ hpower, le_div_iff₀ hpos] at low
  rw [mul_le_mul_iff_left₀ hpower, div_le_iff₀ hpos] at high
  rw [mul_lt_mul_iff_left₀ hpower, lt_div_iff₀ hpos, mul_lt_mul_iff_left₀ hpower, div_lt_iff₀ hpos] at odd
  refine divRoundEven_eq hden' ?_ ?_ ?_
  · have hcast : (2 * (m * d) : ℚ) ≤ 2 * n + d := by linarith
    exact_mod_cast hcast
  · have hcast : (2 * n : ℚ) ≤ 2 * (m * d) + d := by linarith
    exact_mod_cast hcast
  · intro hodd
    obtain ⟨hlow, hhigh⟩ := odd hodd
    have hcastLow : (2 * (m * d) : ℚ) < 2 * n + d := by linarith
    have hcastHigh : (2 * n : ℚ) < 2 * (m * d) + d := by linarith
    exact ⟨by exact_mod_cast hcastLow, by exact_mod_cast hcastHigh⟩

theorem gap_le (m : Nat) (e : Int) : gap m e ≤ 1 / 2 := by
  unfold gap
  split <;> norm_num

/-- Only from below a power of two is a fraction rounded to a number with a larger exponent. -/
theorem RoundsTo.below {m : Nat} {e : Int} {v : ℚ} (near : RoundsTo m e v) (full : 2 ^ (precision - 1) ≤ m)
    (more : e > leastExponent) (small : v < 2 ^ (precision - 1 + e : Int)) :
    m = 2 ^ (precision - 1) ∧ Fits v (e - 1) ∧ ((2 ^ precision : Nat) - 1 / 2 : ℚ) * 2 ^ (e - 1) ≤ v ∧
      v ≤ ((2 ^ precision : Nat) + 1 / 2 : ℚ) * 2 ^ (e - 1) := by
  have hlow := near.low
  have hhalf : (2 : ℚ) ^ e = 2 * 2 ^ (e - 1) := by
    rw [mul_comm, ← zpow_add_one₀ (by norm_num), sub_add_cancel]
  have hpower : (0 : ℚ) < 2 ^ (e - 1) := by positivity
  have hsmall : v < 2 ^ 53 * 2 ^ (e - 1) := by
    have hexp : (precision - 1 + e : Int) = 53 + (e - 1) := by
      have hprecision : (precision : Int) = 53 := rfl
      omega
    rw [hexp, zpow_add₀ (by norm_num)] at small
    exact_mod_cast small
  have hm : m = 2 ^ (precision - 1) := by
    by_contra hne
    have hmore : 2 ^ (precision - 1) + 1 ≤ m := lt_of_le_of_ne full fun h => hne h.symm
    have hcast : (2 ^ 52 + 1 : ℚ) ≤ m := by exact_mod_cast hmore
    have hgap := gap_le m e
    rw [hhalf] at hlow
    nlinarith
  have hgap : gap m e = 1 / 4 := if_pos ⟨hm, more⟩
  have hfull : (m : ℚ) = 2 ^ 52 := by rw [hm]; norm_num [precision]
  have hprecision : ((2 ^ precision : Nat) : ℚ) = 2 ^ 53 := by norm_num [precision]
  rw [hgap, hfull, hhalf] at hlow
  have hlarge : ((2 ^ 53 : ℚ) - 1 / 2) * 2 ^ (e - 1) ≤ v := by linarith
  refine ⟨hm, ⟨by omega, ?_, .inr ?_⟩, ?_, ?_⟩
  · rw [zpow_add₀ (by norm_num)]
    exact_mod_cast hsmall
  · have hexp : (precision - 1 + (e - 1) : Int) = 52 + (e - 1) := rfl
    rw [hexp, zpow_add₀ (by norm_num)]
    refine le_trans ?_ hlarge
    gcongr
    norm_num
  · rw [hprecision]
    exact hlarge
  · rw [hprecision]
    linarith

/-- A fraction that lies near enough to a number is rounded to it. -/
theorem ofFraction_eq {negative : Bool} {num den m : Nat} {e : Int} (canonical : (finite negative m e).IsCanonical)
    (hnum : 0 < num) (hden : 0 < den) (near : RoundsTo m e (num / den)) :
    ofFraction negative num den = finite negative m e := by
  obtain ⟨hm, hleast, hgreatest, hfull⟩ := canonical
  have hbounded : bounded negative m e = finite negative m e := if_neg (not_lt.2 hgreatest)
  by_cases below : (num / den : ℚ) < 2 ^ (precision - 1 + e : Int) ∧ e > leastExponent
  · obtain ⟨hsmall, hmore⟩ := below
    obtain ⟨hpower, hfits, hlow, hhigh⟩ := near.below (hfull.resolve_right hmore.ne') hmore hsmall
    have hmantissa := divRoundEven_scaled hden hlow hhigh fun h => by simp [precision] at h
    rw [ofFraction_of_fits hnum hden hfits, hmantissa]
    have hcarry : 2 ^ precision = Nat.pow 2 precision := rfl
    simp only [hcarry, if_true, sub_add_cancel]
    rw [hpower] at hbounded ⊢
    exact hbounded
  · obtain ⟨hlow, hhigh, hodd⟩ := near
    have hgapped : ((m : ℚ) - 1 / 2) * 2 ^ e ≤ (m - gap m e) * 2 ^ e := by
      have hgap := gap_le m e
      gcongr
    have hfits : Fits (num / den) e := by
      refine ⟨hleast, ?_, ?_⟩
      · have hcast : (m : ℚ) + 1 ≤ 2 ^ 53 := by exact_mod_cast hm
        rw [zpow_add₀ (by norm_num)]
        refine hhigh.trans_lt ?_
        gcongr
        have hprecision : (2 : ℚ) ^ (precision : Int) = 2 ^ 53 := rfl
        rw [hprecision]
        linarith
      · rcases not_and_or.1 below with hlarge | hequal
        · exact .inr (not_lt.1 hlarge)
        · exact .inl (by omega)
    have hmantissa := divRoundEven_scaled hden (hgapped.trans hlow) hhigh fun h =>
      ⟨hgapped.trans_lt (hodd h).1, (hodd h).2⟩
    have hnoCarry : m ≠ Nat.pow 2 precision := hm.ne
    rw [ofFraction_of_fits hnum hden hfits, hmantissa]
    simp only [if_neg hnoCarry]
    exact hbounded

end ScriptedRobot.Binary64
