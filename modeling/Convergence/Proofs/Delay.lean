import Mathlib.Algebra.Group.Nat.Defs
import Mathlib.Tactic.Lemma
import Convergence.Reconcile.Retry
/-!
# How delays grow

Under an exponential policy the delay begins with the base and doubles with each failure, sixteen
times at most, up to the longest delay of the policy or to the base where that is longer.  A product
is cut off at the longest duration, which does not show in a delay, since no cap is longer
(`nanos_delay`).  All else about delays follows from that equation (`delay_law`).
-/

namespace Convergence

namespace Duration

/-- That a multiple is cut off does not show where no longer duration is wanted. -/
lemma nanos_shorter_scale (d e : Duration) (factor : Nat) :
    ((d.scale factor).shorter e).nanos = min (d.nanos * factor) e.nanos := by
  have hlt := e.nanos_lt
  rw [nanos_shorter, scale, nanos_ofNanos]
  omega

end Duration

namespace RetryPolicy

/-- The longest delay: that of the policy or the base, whichever is longer. -/
def ceiling (base : Duration) : RetryPolicy → Duration
  | .fixed => base
  | .exponential maxInterval => maxInterval.longer base

variable {p : RetryPolicy} {base base' maxInterval maxInterval' : Duration} {n n' : Nat}

lemma nanos_ceiling (maxInterval base : Duration) :
    ((exponential maxInterval).ceiling base).nanos = max maxInterval.nanos base.nanos :=
  Duration.nanos_longer maxInterval base

/-- The delay in nanoseconds, as a number without bounds. -/
lemma nanos_delay (maxInterval base : Duration) (n : Nat) :
    ((exponential maxInterval).delay base n).nanos =
      min (base.nanos * 2 ^ min n doublings) ((exponential maxInterval).ceiling base).nanos :=
  Duration.nanos_shorter_scale base (maxInterval.longer base) (2 ^ min n doublings)

lemma delay_le_ceiling : p.delay base n ≤ p.ceiling base := by
  cases p with
  | fixed => exact Nat.le_refl _
  | exponential maxInterval =>
    rw [Duration.le_def, nanos_delay]
    exact Nat.min_le_right _ _

lemma base_le_delay : base ≤ p.delay base n := by
  cases p with
  | fixed => exact Nat.le_refl _
  | exponential maxInterval =>
    have hpow : base.nanos ≤ base.nanos * 2 ^ min n doublings :=
      Nat.le_mul_of_pos_right _ (Nat.two_pow_pos _)
    rw [Duration.le_def, nanos_delay, nanos_ceiling]
    omega

lemma delay_mono (hn : n ≤ n') (hbase : base ≤ base') (hmax : maxInterval ≤ maxInterval') :
    (exponential maxInterval).delay base n ≤ (exponential maxInterval').delay base' n' := by
  have hpow : 2 ^ min n doublings ≤ 2 ^ min n' doublings :=
    Nat.pow_le_pow_right (by decide) (by omega)
  have hmul : base.nanos * 2 ^ min n doublings ≤ base'.nanos * 2 ^ min n' doublings :=
    Nat.mul_le_mul hbase hpow
  rw [Duration.le_def] at hbase hmax
  rw [Duration.le_def, nanos_delay, nanos_delay, nanos_ceiling, nanos_ceiling]
  omega

lemma delay_zero : (exponential maxInterval).delay base 0 = base := by
  refine Duration.ext_nanos ?_
  rw [nanos_delay, nanos_ceiling, Nat.zero_min, Nat.pow_zero, Nat.mul_one]
  omega

/-- While the delay still grows, one more failure doubles it as far as the cap allows. -/
lemma nanos_delay_succ (h : n < doublings) :
    ((exponential maxInterval).delay base (n + 1)).nanos =
      min (2 * ((exponential maxInterval).delay base n).nanos)
        ((exponential maxInterval).ceiling base).nanos := by
  have hdouble : base.nanos * 2 ^ (n + 1) = 2 * (base.nanos * 2 ^ n) := by
    rw [Nat.pow_succ, ← Nat.mul_assoc, Nat.mul_comm]
  rw [nanos_delay, nanos_delay, Nat.min_eq_left h, Nat.min_eq_left (Nat.le_of_lt h), hdouble]
  omega

lemma delay_of_doublings_le (h : doublings ≤ n) :
    (exponential maxInterval).delay base n = (exponential maxInterval).delay base doublings := by
  refine Duration.ext_nanos ?_
  rw [nanos_delay, nanos_delay, Nat.min_eq_right h, Nat.min_self]

/-- Delays that begin with the base and double up to the cap, so many times. -/
structure Doubles (base cap : Duration) (times : Nat) (delay : Nat → Duration) : Prop where
  begins : delay 0 = base
  between : ∀ n, base ≤ delay n ∧ delay n ≤ cap
  doubles : ∀ n < times, (delay (n + 1)).nanos = min (2 * (delay n).nanos) cap.nanos
  settles : ∀ n, times ≤ n → delay n = delay times
  /-- As if there were no longest duration. -/
  unbounded : ∀ n, (delay n).nanos = min (base.nanos * 2 ^ min n times) cap.nanos

/-- The delays of an exponential policy double sixteen times, up to the longest delay of the policy
or to the base if that is longer.  They do not get shorter when there are more failures, or when the
base or the longest delay gets longer.  Those of a fixed policy are the base. -/
theorem delay_law :
    (∀ base maxInterval, Doubles base (maxInterval.longer base) 16
      ((exponential maxInterval).delay base)) ∧
    (∀ n n' base base' maxInterval maxInterval', n ≤ n' → base ≤ base' →
      maxInterval ≤ maxInterval' →
      (exponential maxInterval).delay base n ≤ (exponential maxInterval').delay base' n') ∧
    ∀ base n, fixed.delay base n = base := by
  refine ⟨fun base maxInterval => ?_, fun _ _ _ _ _ _ => delay_mono, fun _ _ => rfl⟩
  exact {
    begins := delay_zero
    between := fun _ => ⟨base_le_delay, delay_le_ceiling⟩
    doubles := fun _ => nanos_delay_succ
    settles := fun _ => delay_of_doublings_le
    unbounded := nanos_delay maxInterval base }

-- half a second is doubled exactly; the longest duration stays what it is
example : (List.range 4).map ((exponential (.ofSeconds 3)).delay (.ofNanos 500000000)) =
      [.ofNanos 500000000, .ofSeconds 1, .ofSeconds 2, .ofSeconds 3] ∧
    (exponential (.ofSeconds 3)).delay .longest 16 = .longest := by decide

end RetryPolicy

end Convergence
