import Mathlib
import ScriptedRobot.Moment

/-!
# Moments in order

Moments are compared field by field, from the year to the second. That is the order of time
(`Moment.instant_lt_iff`), and in years of four digits it is the order of the names of runs as well
(`Moment.runName_lt`). No two moments give the same name (`Moment.runName_injective`).
-/

namespace ScriptedRobot.Moment

variable {s t : Moment}

/-- The first moment comes before the second one: the first field in which they differ is less. -/
def Precedes (s t : Moment) : Prop :=
  s.year < t.year ∨ s.year = t.year ∧ (s.month < t.month ∨ s.month = t.month ∧ (s.day < t.day ∨ s.day = t.day ∧
    (s.hour < t.hour ∨ s.hour = t.hour ∧ (s.minute < t.minute ∨ s.minute = t.minute ∧ s.second < t.second))))

theorem eq_of_fields (year : s.year = t.year) (month : s.month = t.month) (day : s.day = t.day) (hour : s.hour = t.hour)
    (minute : s.minute = t.minute) (second : s.second = t.second) : s = t := by
  cases s
  cases t
  simp only at year month day hour minute second
  subst year month day hour minute second
  rfl

theorem precedes_trichotomy (s t : Moment) : s.Precedes t ∨ s = t ∨ t.Precedes s := by
  by_cases hsame : s.year = t.year ∧ s.month = t.month ∧ s.day = t.day ∧ s.hour = t.hour ∧ s.minute = t.minute ∧
      s.second = t.second
  · obtain ⟨hyear, hmonth, hday, hhour, hminute, hsecond⟩ := hsame
    exact .inr (.inl (eq_of_fields hyear hmonth hday hhour hminute hsecond))
  · unfold Precedes
    omega

/-! ## Time -/

/-- The days of a year. -/
def daysOfYear (year : Nat) : Nat := ∑ month ∈ Finset.range 12, daysOfMonth year (month + 1)

/-- The days of the calendar before the day of a moment. -/
def daysBefore (t : Moment) : Nat :=
  ∑ year ∈ Finset.range t.year, daysOfYear year + ∑ month ∈ Finset.range (t.month - 1), daysOfMonth t.year (month + 1) +
    (t.day - 1)

/-- The seconds of the calendar before a moment. -/
def instant (t : Moment) : Nat := ((t.daysBefore * 24 + t.hour) * 60 + t.minute) * 60 + t.second

/-- Months and days are counted from one. -/
structure IsDated (t : Moment) : Prop where
  month_pos : 1 ≤ t.month
  day_pos : 1 ≤ t.day

theorem isDated_of_ofNumbers {year month day hour minute second : Int}
    (h : ofNumbers year month day hour minute second = .ok t) : t.IsDated := by
  unfold ofNumbers at h
  repeat
    split at h
    · cases h
  obtain rfl := Except.ok.inj h
  constructor
  · show 1 ≤ month.toNat
    omega
  · show 1 ≤ day.toNat
    omega

theorem sum_range_add_le (f : Nat → Nat) {m n : Nat} (h : m < n) :
    ∑ i ∈ Finset.range m, f i + f m ≤ ∑ i ∈ Finset.range n, f i := by
  rw [← Finset.sum_range_succ]
  exact Finset.sum_le_sum_of_subset (Finset.range_subset_range.2 h)

theorem IsDated.daysBefore_lt_of_year (hs : s.IsDated) (h : s.year < t.year) : s.daysBefore < t.daysBefore := by
  have hyears := sum_range_add_le daysOfYear h
  have hmonth : s.month - 1 < 12 := by
    have := s.month_le
    omega
  have hmonths := sum_range_add_le (fun month => daysOfMonth s.year (month + 1)) hmonth
  have hday := s.day_le
  obtain ⟨hfirst, hday_pos⟩ := hs
  rw [Nat.sub_add_cancel hfirst, ← daysOfYear] at hmonths
  unfold daysBefore
  omega

theorem IsDated.daysBefore_lt_of_month (hs : s.IsDated) (hyear : s.year = t.year) (h : s.month < t.month) :
    s.daysBefore < t.daysBefore := by
  have hmonth : s.month - 1 < t.month - 1 := by
    have := hs.month_pos
    omega
  have hmonths := sum_range_add_le (fun month => daysOfMonth t.year (month + 1)) hmonth
  have hday := s.day_le
  obtain ⟨hfirst, hday_pos⟩ := hs
  rw [Nat.sub_add_cancel hfirst] at hmonths
  unfold daysBefore
  rw [hyear] at hday ⊢
  omega

theorem IsDated.instant_lt (hs : s.IsDated) (h : s.Precedes t) : s.instant < t.instant := by
  have hhour := s.hour_lt
  have hminute := s.minute_lt
  have hsecond := s.second_lt
  have hfromDays : s.daysBefore < t.daysBefore → s.instant < t.instant := by
    intro hdays
    unfold instant
    omega
  rcases h with hyear | ⟨hyear, hmonth | ⟨hmonth, hday | ⟨hday, htime⟩⟩⟩
  · exact hfromDays (hs.daysBefore_lt_of_year hyear)
  · exact hfromDays (hs.daysBefore_lt_of_month hyear hmonth)
  · refine hfromDays ?_
    have := hs.day_pos
    unfold daysBefore
    rw [hyear, hmonth]
    omega
  · have hdays : s.daysBefore = t.daysBefore := by
      unfold daysBefore
      rw [hyear, hmonth, hday]
    unfold instant
    rw [hdays]
    omega

theorem instant_lt_iff (hs : s.IsDated) (ht : t.IsDated) : s.instant < t.instant ↔ s.Precedes t := by
  refine ⟨?_, hs.instant_lt⟩
  intro h
  rcases precedes_trichotomy s t with hbefore | rfl | hafter
  · exact hbefore
  · exact absurd h (Nat.lt_irrefl _)
  · exact absurd h (Nat.lt_asymm (ht.instant_lt hafter))

/-! ## Names -/

/-- Two digits. -/
def pair (n : Nat) : List Char := [Nat.digitChar (n / 10 % 10), Nat.digitChar (n % 10)]

theorem toList_twoDigits (n : Nat) : (twoDigits n).toList = pair n := String.toList_ofList

theorem digitChar_lt : ∀ n < 10, ∀ m < n, Nat.digitChar m < Nat.digitChar n := by decide

theorem digitChar_inj : ∀ m < 10, ∀ n < 10, Nat.digitChar m = Nat.digitChar n → m = n := by decide

theorem pair_inj {m n : Nat} (hm : m < 100) (hn : n < 100) (h : pair m = pair n) : m = n := by
  obtain ⟨htens, hunits⟩ := List.cons.inj h
  have := digitChar_inj _ (Nat.mod_lt _ (by decide)) _ (Nat.mod_lt _ (by decide)) htens
  have := digitChar_inj _ (Nat.mod_lt _ (by decide)) _ (Nat.mod_lt _ (by decide)) (List.cons.inj hunits).1
  omega

/-- Texts that start with two digits each are in the order of the numbers, and if these are the same of the rests. -/
theorem pair_append_lt {m n : Nat} (hn : n < 100) {x y : List Char} (h : m < n ∨ m = n ∧ x < y) :
    pair m ++ x < pair n ++ y := by
  rcases h with h | ⟨rfl, h⟩
  · by_cases htens : m / 10 < n / 10
    · exact List.cons_lt_cons_iff.2 (.inl (digitChar_lt _ (Nat.mod_lt _ (by decide)) _ (by omega)))
    · have hsame : m / 10 = n / 10 := by omega
      have hunits : m % 10 < n % 10 := by omega
      refine List.cons_lt_cons_iff.2 (.inr ⟨by rw [hsame], ?_⟩)
      exact List.cons_lt_cons_iff.2 (.inl (digitChar_lt _ (Nat.mod_lt _ (by decide)) _ hunits))
  · exact List.append_left_lt h

/-- The part of a name behind the year. -/
def nameTail (t : Moment) : List Char :=
  '-' :: (pair t.month ++ '-' :: (pair t.day ++ 'T' :: (pair t.hour ++ '-' :: (pair t.minute ++ '-' ::
    (pair t.second ++ ['Z'])))))

theorem toList_runName (t : Moment) : t.runName.toList = Nat.toDigits 10 t.year ++ t.nameTail := by
  have hyear : (toString t.year).toList = Nat.toDigits 10 t.year := by
    rw [Nat.toString_eq_ofList_toDigits, String.toList_ofList]
  simp only [runName, String.toList_append, toList_twoDigits, hyear, nameTail, List.append_assoc]
  rfl

theorem fields_lt_hundred (t : Moment) :
    t.month < 100 ∧ t.day < 100 ∧ t.hour < 100 ∧ t.minute < 100 ∧ t.second < 100 := by
  have hmonth := t.month_le
  have hday := Nat.le_trans t.day_le (daysOfMonth_le _ _)
  have hhour := t.hour_lt
  have hminute := t.minute_lt
  have hsecond := t.second_lt
  omega

theorem runName_injective (h : s.runName = t.runName) : s = t := by
  have hlists := congrArg String.toList h
  rw [toList_runName, toList_runName] at hlists
  obtain ⟨hyears, htails⟩ := List.append_inj' hlists rfl
  have hyear : s.year = t.year := by
    have hnames : s.year.repr = t.year.repr := by
      rw [Nat.repr_eq_ofList_toDigits, Nat.repr_eq_ofList_toDigits, hyears]
    exact Nat.repr_injective hnames
  obtain ⟨hmonth, hday, hhour, hminute, hsecond⟩ := s.fields_lt_hundred
  obtain ⟨hmonth', hday', hhour', hminute', hsecond'⟩ := t.fields_lt_hundred
  obtain ⟨hmonths, htails⟩ := List.append_inj (List.cons.inj htails).2 rfl
  obtain ⟨hdays, htails⟩ := List.append_inj (List.cons.inj htails).2 rfl
  obtain ⟨hhours, htails⟩ := List.append_inj (List.cons.inj htails).2 rfl
  obtain ⟨hminutes, htails⟩ := List.append_inj (List.cons.inj htails).2 rfl
  obtain ⟨hseconds, -⟩ := List.append_inj (List.cons.inj htails).2 rfl
  exact eq_of_fields hyear (pair_inj hmonth hmonth' hmonths) (pair_inj hday hday' hdays) (pair_inj hhour hhour' hhours)
    (pair_inj hminute hminute' hminutes) (pair_inj hsecond hsecond' hseconds)

/-- Years of four digits. -/
structure HasFourDigitYear (t : Moment) : Prop where
  le_year : 1000 ≤ t.year
  year_le : t.year ≤ 9999

theorem toDigits_of_four {n : Nat} (h : 1000 ≤ n) (h' : n ≤ 9999) :
    Nat.toDigits 10 n = pair (n / 100) ++ pair (n % 100) := by
  rw [Nat.toDigits_of_base_le (by decide) (by omega), Nat.toDigits_of_base_le (by decide) (by omega),
    Nat.toDigits_of_base_le (by decide) (by omega), Nat.toDigits_of_lt_base (by omega)]
  have hthousands : n / 100 / 10 % 10 = n / 10 / 10 / 10 := by omega
  have hhundreds : n / 100 % 10 = n / 10 / 10 % 10 := by omega
  have htens : n % 100 / 10 % 10 = n / 10 % 10 := by omega
  have hunits : n % 100 % 10 = n % 10 := by omega
  rw [pair, pair, hthousands, hhundreds, htens, hunits]
  rfl

theorem nameTail_lt (hyear : s.year = t.year) (h : s.Precedes t) : s.nameTail < t.nameTail := by
  obtain ⟨hmonth, hday, hhour, hminute, hsecond⟩ := t.fields_lt_hundred
  obtain ⟨-, h⟩ : s.year = t.year ∧ _ := h.resolve_left (by omega)
  -- the fields are compared in the order in which they are written
  refine List.cons_lt_cons_iff.2 (.inr ⟨rfl, pair_append_lt hmonth (h.imp_right fun ⟨hsame, h⟩ => ⟨hsame, ?_⟩)⟩)
  refine List.cons_lt_cons_iff.2 (.inr ⟨rfl, pair_append_lt hday (h.imp_right fun ⟨hsame, h⟩ => ⟨hsame, ?_⟩)⟩)
  refine List.cons_lt_cons_iff.2 (.inr ⟨rfl, pair_append_lt hhour (h.imp_right fun ⟨hsame, h⟩ => ⟨hsame, ?_⟩)⟩)
  refine List.cons_lt_cons_iff.2 (.inr ⟨rfl, pair_append_lt hminute (h.imp_right fun ⟨hsame, h⟩ => ⟨hsame, ?_⟩)⟩)
  exact List.cons_lt_cons_iff.2 (.inr ⟨rfl, pair_append_lt hsecond (.inl h)⟩)

/-- Names are in the order of the moments. -/
theorem runName_lt (hs : s.HasFourDigitYear) (ht : t.HasFourDigitYear) (h : s.Precedes t) : s.runName < t.runName := by
  have hyears : s.year ≤ t.year := by
    rcases h with hyear | ⟨hyear, -⟩ <;> omega
  have hbound := ht.year_le
  rw [String.lt_iff, toList_runName, toList_runName, toDigits_of_four hs.le_year hs.year_le,
    toDigits_of_four ht.le_year ht.year_le, List.append_assoc, List.append_assoc]
  refine pair_append_lt (by omega) ?_
  by_cases hhundreds : s.year / 100 < t.year / 100
  · exact .inl hhundreds
  · refine .inr ⟨by omega, pair_append_lt (by omega) ?_⟩
    by_cases hunits : s.year % 100 < t.year % 100
    · exact .inl hunits
    · exact .inr ⟨by omega, nameTail_lt (by omega) h⟩

end ScriptedRobot.Moment
