/-!
# Dates

Days of the Gregorian calendar, continued backwards before its introduction, in the years
-262143 to 262142.
-/

namespace Convergence

/-- The year has a 29th of February. -/
def isLeapYear (year : Int) : Bool := year % 4 = 0 && (year % 100 ≠ 0 || year % 400 = 0)

/-- The number of days of a month; no days if there is no such month. -/
def daysInMonth (year : Int) (month : Nat) : Nat :=
  match month with
  | 1 | 3 | 5 | 7 | 8 | 10 | 12 => 31
  | 4 | 6 | 9 | 11 => 30
  | 2 => if isLeapYear year then 29 else 28
  | _ => 0

/-- A day of the calendar. -/
structure Date where
  year : Int
  /-- From 1 to 12. -/
  month : Nat
  /-- From 1. -/
  day : Nat
  year_ge : -262143 ≤ year := by decide
  year_le : year ≤ 262142 := by decide
  day_pos : 1 ≤ day := by decide
  day_le : day ≤ daysInMonth year month := by decide
deriving DecidableEq, Repr

namespace Date

/-- The day with these numbers, if there is one. -/
def ofNumbers? (year : Int) (month day : Nat) : Option Date :=
  if h : -262143 ≤ year ∧ year ≤ 262142 ∧ 1 ≤ day ∧ day ≤ daysInMonth year month then
    some ⟨year, month, day, h.1, h.2.1, h.2.2.1, h.2.2.2⟩
  else none

/-- The next day, unless this is the last one of all. -/
def next? (d : Date) : Option Date :=
  if d.day < daysInMonth d.year d.month then ofNumbers? d.year d.month (d.day + 1)
  else if d.month < 12 then ofNumbers? d.year (d.month + 1) 1
  else ofNumbers? (d.year + 1) 1 1

/-- The day before, unless this is the first one of all. -/
def previous? (d : Date) : Option Date :=
  if 1 < d.day then ofNumbers? d.year d.month (d.day - 1)
  else if 1 < d.month then ofNumbers? d.year (d.month - 1) (daysInMonth d.year (d.month - 1))
  else ofNumbers? (d.year - 1) 12 31

/-- The numbers of a day stand for that day. -/
theorem ofNumbers?_self (d : Date) : ofNumbers? d.year d.month d.day = some d := by
  unfold ofNumbers?
  rw [dif_pos ⟨d.year_ge, d.year_le, d.day_pos, d.day_le⟩]

theorem daysInMonth_eq_zero {year : Int} {month : Nat} (h : 12 < month) :
    daysInMonth year month = 0 := by
  unfold daysInMonth
  split <;> omega

theorem daysInMonth_le (year : Int) (month : Nat) : daysInMonth year month ≤ 31 := by
  unfold daysInMonth
  split <;> first | omega | (split <;> omega)

theorem month_le (d : Date) : d.month ≤ 12 := by
  rcases Nat.lt_or_ge 12 d.month with h | h
  · have := d.day_pos
    have := d.day_le
    rw [daysInMonth_eq_zero h] at this
    omega
  · exact h

theorem day_le_31 (d : Date) : d.day ≤ 31 := Nat.le_trans d.day_le (daysInMonth_le _ _)

end Date

end Convergence
