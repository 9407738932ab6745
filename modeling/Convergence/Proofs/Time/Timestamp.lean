import Convergence.Proofs.Text.Decimal
import Convergence.Proofs.Text.Words
import Convergence.Time.Timestamp.Printer
import Convergence.Time.Timestamp.Reader
/-!
# Reading points in time back from their texts

Every point in time is read back from its text (`read?_text`), in years of any number of digits and
with leap seconds.

The reader takes the parts of a text one by one, so each part has a lemma that says what is read
from it in front of any characters that cannot go on with it.  No part begins with white space,
although the reader would skip it.
-/

namespace Convergence.Timestamp

open Decimal Text

/-! ## Numbers -/

lemma exists_digit_of_padded (width n : Nat) :
    ∃ c cs, padded width n = c :: cs ∧ c.isDigit = true := by
  obtain ⟨c, cs, hcs⟩ := List.exists_cons_of_ne_nil (padded_ne_nil width n)
  exact ⟨c, cs, hcs, isDigit_of_mem_padded c (hcs ▸ List.mem_cons_self)⟩

lemma trimStart_padded (width n : Nat) (rest : List Char) :
    trimStart (padded width n ++ rest) = padded width n ++ rest := by
  obtain ⟨c, cs, hcs, hc⟩ := exists_digit_of_padded width n
  rw [hcs, List.cons_append, trimStart_cons (isBlank_of_isDigit hc)]

/-- A number ends where it may have no more digits, or where no digit follows. -/
lemma digits?_padded {most width : Nat} (n : Nat) {rest : List Char}
    (hlength : (padded width n).length ≤ most)
    (hrest : (padded width n).length = most ∨ ∀ c ∈ rest.head?, c.isDigit = false) :
    digits? most (padded width n ++ rest) = some (n, rest) := by
  have htail : (rest.take (most - (padded width n).length)).takeWhile Char.isDigit = [] := by
    rcases hrest with hfull | hrest
    · rw [hfull, Nat.sub_self, List.take_zero, List.takeWhile_nil]
    · cases rest with
      | nil => simp
      | cons c rest =>
        have hc : c.isDigit = false := hrest c rfl
        cases most - (padded width n).length with
        | zero => simp
        | succ k => simp [hc]
  have hdigits : ((padded width n ++ rest).take most).takeWhile Char.isDigit = padded width n := by
    rw [List.take_append, List.take_of_length_le hlength,
      List.takeWhile_append_of_pos isDigit_of_mem_padded, htail, List.append_nil]
  rw [digits?, hdigits, value?_padded, Option.map_some, List.drop_left]

lemma number?_padded {width n : Nat} (hwidth : 0 < width) (h : n < 10 ^ width)
    (rest : List Char) : number? width (padded width n ++ rest) = some (n, rest) := by
  have hlength := length_padded hwidth h
  rw [number?, trimStart_padded, digits?_padded n (Nat.le_of_eq hlength) (.inl hlength)]

lemma after?_cons {c : Char} (h : isBlank c = false) (rest : List Char) :
    after? c (c :: rest) = some rest := by
  rw [after?, trimStart_cons h]
  simp

/-! ## Dates -/

lemma year?_yearChars (year : Int) (rest : List Char) :
    year? (yearChars year ++ '-' :: rest) = some (year, '-' :: rest) := by
  rw [yearChars]
  split
  · next hyear =>
    have hlength : (padded 4 year.toNat).length = 4 := length_padded (by decide) (by omega)
    obtain ⟨c, cs, hcs, hc⟩ := exists_digit_of_padded 4 year.toNat
    have hread : digits? 4 (padded 4 year.toNat ++ '-' :: rest)
        = some (year.toNat, '-' :: rest) :=
      digits?_padded year.toNat (Nat.le_of_eq hlength) (.inl hlength)
    have hyear' : (year.toNat : Int) = year := by omega
    rw [year?, trimStart_padded]
    rw [hcs, List.cons_append] at hread ⊢
    split
    · next heq =>
      rw [(List.cons.inj heq).1] at hc
      exact absurd hc (by decide)
    · next heq =>
      rw [(List.cons.inj heq).1] at hc
      exact absurd hc (by decide)
    · simp only [hread, Option.map_some, hyear']
  · next hyear =>
    have hread : digits? (padded 4 year.natAbs ++ '-' :: rest).length
        (padded 4 year.natAbs ++ '-' :: rest) = some (year.natAbs, '-' :: rest) :=
      digits?_padded year.natAbs (by simp) (.inr (by simp))
    split
    · next hneg =>
      have hyear' : -(year.natAbs : Int) = year := by omega
      rw [List.cons_append, year?, trimStart_cons (by decide)]
      simp only [hread, Option.map_some, hyear']
    · next hpos =>
      have hyear' : (year.natAbs : Int) = year := by omega
      rw [List.cons_append, year?, trimStart_cons (by decide)]
      simp only [hread, Option.map_some, hyear']

lemma date?_chars (d : Date) (rest : List Char) :
    date? (yearChars d.year ++ '-' :: padded 2 d.month ++ '-' :: padded 2 d.day ++ rest)
      = some (d, rest) := by
  have hmonth : d.month < 10 ^ 2 := Nat.lt_of_le_of_lt d.month_le (by decide)
  have hday : d.day < 10 ^ 2 := Nat.lt_of_le_of_lt d.day_le_31 (by decide)
  rw [date?]
  simp only [List.append_assoc, List.cons_append, year?_yearChars, Option.bind_eq_bind,
    Option.bind_some, after?_cons (c := '-') (by decide), number?_padded (by decide) hmonth,
    number?_padded (by decide) hday, d.ofNumbers?_self, Option.pure_def]

/-! ## Times of day -/

/-- The digits of a fraction stand for billionths of a second. -/
lemma fraction?_digits {width n : Nat} (hwidth : 0 < width) (hle : width ≤ 9)
    (h : n < 10 ^ width) :
    fraction? ('.' :: padded width n ++ ['Z']) = some (n * 10 ^ (9 - width), ['Z']) := by
  have hlength := length_padded hwidth h
  have hspan : (padded width n ++ ['Z']).span Char.isDigit = (padded width n, ['Z']) :=
    span_append isDigit_of_mem_padded (by simp)
  have hempty : (padded width n).isEmpty = false := by simpa using padded_ne_nil width n
  rw [List.cons_append, fraction?, hspan]
  simp [hempty, nanoseconds, List.take_of_length_le (hlength ▸ hle), value?_padded, hlength]

lemma fraction?_fractionChars {n : Nat} (h : n < 1000000000) :
    fraction? (fractionChars n ++ ['Z']) = some (n, ['Z']) := by
  rw [fractionChars]
  split
  · next hzero => rw [hzero]; rfl
  split
  · next hmillis =>
    rw [fraction?_digits (by decide) (by decide) (by omega)]
    simp only [Option.some.injEq, Prod.mk.injEq, and_true]
    omega
  split
  · next hmicros =>
    rw [fraction?_digits (by decide) (by decide) (by omega)]
    simp only [Option.some.injEq, Prod.mk.injEq, and_true]
    omega
  · rw [fraction?_digits (by decide) (by decide) (by omega), Nat.sub_self, Nat.pow_zero,
      Nat.mul_one]

/-- A leap second is shown as second 60, and taken for one again. -/
lemma ofNumbers?_shown (t : Timestamp) :
    ofNumbers? t.date t.hour t.minute t.shownSecond (t.nanosecond % 1000000000) = some t := by
  obtain ⟨date, hour, minute, second, nanosecond, hhour, hminute, hsecond, hnano, hleap⟩ := t
  by_cases hlong : 1000000000 ≤ nanosecond
  · obtain rfl : second = 59 := hleap hlong
    have hshown : 59 + nanosecond / 1000000000 = 60 := by omega
    have hback : nanosecond % 1000000000 + 1000000000 = nanosecond := by omega
    simp [ofNumbers?, shownSecond, hshown, hback, hhour, hminute, hnano]
  · have hshown : second + nanosecond / 1000000000 = second := by omega
    have hback : nanosecond % 1000000000 = nanosecond := by omega
    have hne : second ≠ 60 := Nat.ne_of_lt hsecond
    simp [ofNumbers?, shownSecond, hshown, hback, hne, hhour, hminute, hsecond, hnano, hlong]

/-- The characters of a time of day, and of universal time. -/
def clockChars (t : Timestamp) : List Char :=
  padded 2 t.hour ++ ':' :: padded 2 t.minute ++ ':' :: padded 2 t.shownSecond
    ++ fractionChars (t.nanosecond % 1000000000) ++ ['Z']

lemma timeOn?_clockChars (t : Timestamp) : timeOn? t.date t.clockChars = some (t, ['Z']) := by
  have hhour : t.hour < 10 ^ 2 := Nat.lt_trans t.hour_lt (by decide)
  have hminute : t.minute < 10 ^ 2 := Nat.lt_trans t.minute_lt (by decide)
  have hsecond : t.shownSecond < 10 ^ 2 := by
    have := t.second_lt
    have := t.nanosecond_lt
    rw [shownSecond]
    omega
  have hfraction := fraction?_fractionChars (Nat.mod_lt t.nanosecond (y := 1000000000) (by decide))
  rw [timeOn?, clockChars]
  simp only [List.append_assoc, List.cons_append, Option.bind_eq_bind, Option.bind_some,
    number?_padded (by decide) hhour, after?_cons (c := ':') (by decide),
    number?_padded (by decide) hminute, number?_padded (by decide) hsecond, hfraction,
    t.ofNumbers?_shown, Option.pure_def]

/-! ## Whole texts -/

/-- A clock that shows universal time shows the point in time itself. -/
lemma ofLocal?_zero (t : Timestamp) : ofLocal? 0 t = some t := by
  have hhour := t.hour_lt
  have hminute := t.minute_lt
  obtain ⟨minutes, hminutes⟩ : ∃ minutes : Int, minutes = t.hour * 60 + t.minute - 0 := ⟨_, rfl⟩
  have hinDay : (minutes % 1440).toNat = t.hour * 60 + t.minute := by omega
  have hhour' : (t.hour * 60 + t.minute) / 60 % 24 = t.hour := by omega
  have hminute' : (t.hour * 60 + t.minute) % 60 = t.minute := by omega
  rw [ofLocal?]
  simp only [← hminutes, hinDay, hhour', hminute', if_neg (show ¬ minutes < 0 by omega),
    if_neg (show ¬ 1440 ≤ minutes by omega), Option.map_some]

lemma chars_eq (t : Timestamp) :
    t.chars = yearChars t.date.year ++ '-' :: padded 2 t.date.month ++ '-' :: padded 2 t.date.day
      ++ 'T' :: t.clockChars := by
  simp [chars, clockChars]

/-- Every point in time is read back from its text. -/
theorem read?_text (t : Timestamp) : read? t.text = some t := by
  have hoffset : offset? (trimStart ['Z']) = some (0, []) := rfl
  have hend : trimStart [] = [] := rfl
  rw [read?, text, String.toList_ofList, ofChars?, chars_eq, date?_chars]
  simp [timeOn?_clockChars, hoffset, hend, ofLocal?_zero]

end Convergence.Timestamp
