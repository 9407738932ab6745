import Convergence.Time.Duration
/-!
# How long to wait before the next attempt

`RetryPolicy.delay` is the time between an attempt and the follow-up check after it, given how many
attempts in a row have failed.
-/

namespace Convergence

/-- How the delay grows while attempts keep failing. -/
inductive RetryPolicy where
  /-- It does not grow. -/
  | fixed
  /-- It doubles with each failure, up to a longest delay. -/
  | exponential (maxInterval : Duration)
deriving DecidableEq, Repr

namespace RetryPolicy

/-- From this number of failures on, the delay grows no more. -/
def doublings : Nat := 16

/-- The delay after so many failures in a row. -/
def delay (p : RetryPolicy) (base : Duration) (failures : Nat) : Duration :=
  match p with
  | .fixed => base
  | .exponential maxInterval =>
    (base.scale (Nat.pow 2 (min failures doublings))).shorter (maxInterval.longer base)

end RetryPolicy

end Convergence
