import Convergence.Time.Date
/-!
# Points in time

A `Timestamp` is a point in time to the nanosecond, in universal time.  A leap second is the last
second of its minute going on: second 59 with a billion nanoseconds or more.

`Timestamp.ofLocal?` converts a local time by its distance from universal time; `atOrBefore` is the
order in time.
-/

namespace Convergence

/-- A point in time, in universal time. -/
structure Timestamp where
  date : Date
  hour : Nat
  minute : Nat
  second : Nat
  /-- Below a billion, or up to two billions in a leap second. -/
  nanosecond : Nat
  hour_lt : hour < 24 := by decide
  minute_lt : minute < 60 := by decide
  second_lt : second < 60 := by decide
  nanosecond_lt : nanosecond < 2000000000 := by decide
  leap : 1000000000 ≤ nanosecond → second = 59 := by decide
deriving DecidableEq, Repr

namespace Timestamp

/-- The numbers of a point in time, the slowest first. -/
def numbers (t : Timestamp) : List Int :=
  [t.date.year, t.date.month, t.date.day, t.hour, t.minute, t.second, t.nanosecond]

/-- The first point in time is the second one or before it. -/
def atOrBefore (s t : Timestamp) : Bool := !t.numbers.lex s.numbers

/-- A day and a time of day; a 60th second is a leap second.  None if there is no such time. -/
def ofNumbers? (date : Date) (hour minute second nanosecond : Nat) : Option Timestamp :=
  let (second, nanosecond) :=
    if second = 60 then (59, nanosecond + 1000000000) else (second, nanosecond)
  if h : hour < 24 ∧ minute < 60 ∧ second < 60 ∧ nanosecond < 2000000000
      ∧ (1000000000 ≤ nanosecond → second = 59) then
    some ⟨date, hour, minute, second, nanosecond, h.1, h.2.1, h.2.2.1, h.2.2.2.1, h.2.2.2.2⟩
  else none

/-- The point in time at which clocks that are `offset` minutes ahead of universal time show the
given local time.  The offset is less than a day, so the date moves by one day at most. -/
def ofLocal? (offset : Int) (shown : Timestamp) : Option Timestamp :=
  let minutes : Int := shown.hour * 60 + shown.minute - offset
  let date? :=
    if minutes < 0 then shown.date.previous?
    else if 1440 ≤ minutes then shown.date.next?
    else some shown.date
  let inDay := (minutes % 1440).toNat
  date?.map fun date =>
    { shown with
      date := date
      hour := inDay / 60 % 24
      minute := inDay % 60
      hour_lt := Nat.mod_lt _ (by decide)
      minute_lt := Nat.mod_lt _ (by decide) }

end Timestamp

end Convergence
