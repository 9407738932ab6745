/-!
# Lengths of time

A `Duration` is a number of nanoseconds of less than 2 ^ 64 seconds.  Sums and multiples that would
be longer are the longest duration instead.
-/

namespace Convergence

/-- A length of time. -/
structure Duration where
  nanos : Nat
  nanos_lt : nanos < UInt64.size * 1000000000
deriving DecidableEq, Repr

namespace Duration

/-- The longest duration: one nanosecond less than 2 ^ 64 seconds. -/
def longest : Duration := ⟨UInt64.size * 1000000000 - 1, by decide⟩

/-- So many nanoseconds, or the longest duration. -/
def ofNanos (n : Nat) : Duration :=
  if h : n < UInt64.size * 1000000000 then ⟨n, h⟩ else longest

/-- So many whole seconds. -/
def ofSeconds (n : UInt64) : Duration :=
  ⟨n.toNat * 1000000000, Nat.mul_lt_mul_of_pos_right n.toNat_lt_size (by decide)⟩

/-- The whole seconds of a duration. -/
def seconds (d : Duration) : Nat := d.nanos / 1000000000

/-- The nanoseconds beyond the whole seconds. -/
def subsecond (d : Duration) : Nat := d.nanos % 1000000000

/-- The duration takes no time at all. -/
def isZero (d : Duration) : Bool := d.nanos == 0

/-- The sum, or the longest duration. -/
def add (d e : Duration) : Duration := ofNanos (d.nanos + e.nanos)

/-- The multiple, or the longest duration. -/
def scale (d : Duration) (factor : Nat) : Duration := ofNanos (d.nanos * factor)

/-- The shorter of two durations. -/
def shorter (d e : Duration) : Duration := if d.nanos ≤ e.nanos then d else e

/-- The longer of two durations. -/
def longer (d e : Duration) : Duration := if d.nanos ≤ e.nanos then e else d

instance : LE Duration := ⟨fun d e => d.nanos ≤ e.nanos⟩

instance (d e : Duration) : Decidable (d ≤ e) := inferInstanceAs (Decidable (d.nanos ≤ e.nanos))

theorem le_def {d e : Duration} : d ≤ e ↔ d.nanos ≤ e.nanos := Iff.rfl

@[ext] theorem ext_nanos {d e : Duration} (h : d.nanos = e.nanos) : d = e := by
  cases d; cases e; simp_all

theorem nanos_ofNanos (n : Nat) : (ofNanos n).nanos = min n (UInt64.size * 1000000000 - 1) := by
  unfold ofNanos longest
  split <;> simp <;> omega

@[simp] theorem nanos_shorter (d e : Duration) : (d.shorter e).nanos = min d.nanos e.nanos := by
  unfold shorter; split <;> omega

@[simp] theorem nanos_longer (d e : Duration) : (d.longer e).nanos = max d.nanos e.nanos := by
  unfold longer; split <;> omega

end Duration

end Convergence
