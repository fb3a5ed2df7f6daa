import ScriptedRobot.Text.Quoted

/-!
# Moments

A second of the calendar, and the name that a run started in it gets. Names of moments with four-digit
years are in the order of the moments.
-/

namespace ScriptedRobot

def isLeapYear (year : Nat) : Bool := year % 4 == 0 && (year % 100 != 0 || year % 400 == 0)

def daysOfMonth (year month : Nat) : Nat :=
  if month = 2 then if isLeapYear year then 29 else 28
  else if month ∈ [4, 6, 9, 11] then 30
  else 31

theorem daysOfMonth_le (year month : Nat) : daysOfMonth year month ≤ 31 := by
  unfold daysOfMonth
  split
  · split <;> decide
  · split <;> decide

/-- A second of the calendar. -/
structure Moment where
  year : Nat
  /-- The month, counted from one. -/
  month : Nat
  /-- The day, counted from one. -/
  day : Nat
  hour : Nat
  minute : Nat
  second : Nat
  month_le : month ≤ 12
  day_le : day ≤ daysOfMonth year month
  hour_lt : hour < 24
  minute_lt : minute < 60
  second_lt : second < 60
  deriving DecidableEq, Repr

/-- Why numbers make no moment. -/
inductive MomentFault where
  | year (n : Int)
  | month
  | day
  | hour
  | minute
  | second
  deriving DecidableEq, Repr

def MomentFault.message : MomentFault → String
  | year n => s!"year {n} is out of range"
  | month => "month must be in 1..12"
  | day => "day is out of range for month"
  | hour => "hour must be in 0..23"
  | minute => "minute must be in 0..59"
  | second => "second must be in 0..59"

namespace Moment

/-- The last year of the calendar. -/
def lastYear : Int := 9999

/-- The moment of some numbers, or the first of them that is out of range. -/
def ofNumbers (year month day hour minute second : Int) : Except MomentFault Moment :=
  if year < 1 ∨ lastYear < year then .error (.year year)
  else if hm : month < 1 ∨ 12 < month then .error .month
  else if hd : day < 1 ∨ (daysOfMonth year.toNat month.toNat : Int) < day then .error .day
  else if hh : hour < 0 ∨ 24 ≤ hour then .error .hour
  else if hi : minute < 0 ∨ 60 ≤ minute then .error .minute
  else if hs : second < 0 ∨ 60 ≤ second then .error .second
  else .ok
    { year := year.toNat
      month := month.toNat
      day := day.toNat
      hour := hour.toNat
      minute := minute.toNat
      second := second.toNat
      month_le := by omega
      day_le := by omega
      hour_lt := by omega
      minute_lt := by omega
      second_lt := by omega }

/-- A number below one hundred in two digits. -/
def twoDigits (n : Nat) : String :=
  String.ofList [Nat.digitChar (n / 10 % 10), Nat.digitChar (n % 10)]

/-- The name of a run that starts at this moment. -/
def runName (t : Moment) : String :=
  let date := toString t.year ++ "-" ++ twoDigits t.month ++ "-" ++ twoDigits t.day
  let time := twoDigits t.hour ++ "-" ++ twoDigits t.minute ++ "-" ++ twoDigits t.second
  date ++ "T" ++ time ++ "Z"

end Moment

end ScriptedRobot
