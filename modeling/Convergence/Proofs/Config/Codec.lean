import Convergence.Config.App
import Convergence.Proofs.Record.Codec
/-!
# Reading configurations back

A document has room for the whole seconds of a duration only.  So a configuration is read back from
its node with its durations cut to whole seconds (`AppConfig.holds_node`), and is the same as before
exactly if they were whole seconds (`AppConfig.truncated_eq_self`).
-/

namespace Convergence

open Node Fields

/-! ## Durations -/

namespace Duration

/-- The duration without what is beyond its whole seconds. -/
def truncated (d : Duration) : Duration := .ofSeconds (.ofNat d.seconds)

lemma seconds_lt (d : Duration) : d.seconds < UInt64.size := by
  have := d.nanos_lt
  rw [seconds]
  omega

lemma nanos_truncated (d : Duration) : d.truncated.nanos = d.seconds * 1000000000 := by
  have hseconds : (UInt64.ofNat d.seconds).toNat = d.seconds :=
    UInt64.toNat_ofNat_of_lt' d.seconds_lt
  exact congrArg (· * 1000000000) hseconds

lemma truncated_eq_self {d : Duration} : d.truncated = d ↔ d.subsecond = 0 := by
  have hnanos : d.truncated = d ↔ d.seconds * 1000000000 = d.nanos :=
    ⟨fun h => by rw [← nanos_truncated, h], fun h => ext_nanos (d.nanos_truncated.trans h)⟩
  rw [hnanos, seconds, subsecond]
  omega

lemma subsecond_ofSeconds (n : UInt64) : (ofSeconds n).subsecond = 0 := by
  simp [subsecond, ofSeconds]

lemma holds_node (d : Duration) : Holds Duration.ofNode? d.node d.truncated where
  read_eq := by
    have hlt := d.seconds_lt
    simp [ofNode?, node, Node.nat, natBelow?, hlt, truncated]
  plain := by
    have hlt := d.seconds_lt
    simp only [node, Node.nat, Node.plain, fits64, Bool.and_eq_true, decide_eq_true_eq]
    omega
  ne_null := Node.noConfusion

end Duration

/-! ## Retry policies -/

namespace RetryPolicy

/-- The durations that a policy has. -/
def durations : RetryPolicy → List Duration
  | .fixed => []
  | .exponential maxInterval => [maxInterval]

/-- The policy with its durations cut to whole seconds. -/
def truncated : RetryPolicy → RetryPolicy
  | .fixed => .fixed
  | .exponential maxInterval => .exponential maxInterval.truncated

lemma truncated_eq_self {p : RetryPolicy} :
    p.truncated = p ↔ ∀ d ∈ p.durations, d.subsecond = 0 := by
  cases p <;> simp [truncated, durations, Duration.truncated_eq_self]

/-- A policy is kept whole while it is read, which its own map has to be allowed for. -/
lemma holds_node {f : Format} (h : 0 < f.nestingLimit) (p : RetryPolicy) :
    Holds (ofNode? f) p.node p.truncated where
  read_eq := by
    cases p with
    | fixed =>
      have hone : 1 ≤ f.nestingLimit := h
      simp [ofNode?, node, truncated, sound, soundMembers, depth, depthMembers, hone, occurrences,
        member?, tag, text?, ofMembers?]
    | exponential maxInterval =>
      have hone : 1 ≤ f.nestingLimit := h
      have hread := maxInterval.holds_node.read_eq
      have hsound : maxInterval.node.sound = true := rfl
      have hdepth : maxInterval.node.depth = 0 := rfl
      simp [ofNode?, node, truncated, sound, soundMembers, depth, depthMembers, hsound, hdepth,
        hone, occurrences, member?, tag, text?, ofMembers?, hread]
  plain := by
    cases p with
    | fixed => rfl
    | exponential maxInterval =>
      simp [node, Node.plain, plainMembers, maxInterval.holds_node.plain]
  ne_null := by cases p <;> exact Node.noConfusion

end RetryPolicy

/-! ## Configurations -/

namespace ControllerConfig

/-- The durations that a configuration has. -/
def durations (c : ControllerConfig) : List Duration :=
  c.recheckInterval :: c.shutdownTimeout :: c.retry.durations

/-- The configuration with its durations cut to whole seconds. -/
def truncated (c : ControllerConfig) : ControllerConfig :=
  { c with
    recheckInterval := c.recheckInterval.truncated
    shutdownTimeout := c.shutdownTimeout.truncated
    retry := c.retry.truncated }

lemma truncated_eq_self {c : ControllerConfig} :
    c.truncated = c ↔ ∀ d ∈ c.durations, d.subsecond = 0 := by
  obtain ⟨recheck, shutdown, subscriber, retry⟩ := c
  simp [truncated, durations, Duration.truncated_eq_self, RetryPolicy.truncated_eq_self]

lemma holds_node {f : Format} (h : 1 < f.nestingLimit) (c : ControllerConfig) :
    Holds (ofNode? f) c.node c.truncated := by
  have hinner : 0 < f.inner.nestingLimit := Nat.sub_pos_of_lt h
  have hnode : c.node = record [("recheck_interval", some c.recheckInterval.node),
      ("shutdown_timeout", some c.shutdownTimeout.node),
      ("subscriber_name", some (.str c.subscriberName)), ("retry", some c.retry.node)] := rfl
  rw [hnode]
  refine holds_record ?_ ?_
  · rw [ofNode?, fields?_bind _ (by decide),
      defaulted_bind _ (Duration.holds_node _), defaulted_bind _ (Duration.holds_node _),
      defaulted_bind _ (holds_str _), defaulted_bind _ (RetryPolicy.holds_node hinner _)]
    all_goals rfl
  · simp [(Duration.holds_node _).plain, (holds_str _).plain,
      (RetryPolicy.holds_node hinner _).plain]

end ControllerConfig

lemma BackendConfig.holds_node (f : Format) (c : BackendConfig) : Holds (ofNode? f) c.node c := by
  have hnode : c.node = record [("provisioner_api", some (.str c.provisionerApi)),
      ("namespace", some (.str c.space)), ("git_base_url", some (.str c.gitBaseUrl)),
      ("auto_ready", some (.bool c.autoReady))] := rfl
  rw [hnode]
  refine holds_record ?_ ?_
  · rw [ofNode?, fields?_bind _ (by decide),
      defaulted_bind _ (holds_str _), defaulted_bind _ (holds_str _),
      defaulted_bind _ (holds_str _), defaulted_bind _ (holds_bool _)]
    all_goals rfl
  · simp [(holds_str _).plain, (holds_bool _).plain]

namespace AppConfig

/-- The configuration with its durations cut to whole seconds. -/
def truncated (c : AppConfig) : AppConfig := { c with controller := c.controller.truncated }

lemma truncated_eq_self {c : AppConfig} :
    c.truncated = c ↔ ∀ d ∈ c.controller.durations, d.subsecond = 0 := by
  obtain ⟨controller, backends⟩ := c
  simp [truncated, ControllerConfig.truncated_eq_self]

lemma holds_node {f : Format} (h : 2 < f.nestingLimit) (c : AppConfig) :
    Holds (ofNode? f) c.node c.truncated := by
  have hinner : 1 < f.inner.nestingLimit := Nat.lt_sub_of_add_lt h
  have hnode : c.node = record [("controller", some c.controller.node),
      ("backends", some c.backends.node)] := rfl
  rw [hnode]
  refine holds_record ?_ ?_
  · rw [ofNode?, fields?_bind _ (by decide),
      defaulted_bind _ (ControllerConfig.holds_node hinner _),
      defaulted_bind _ (c.backends.holds_node f)]
    all_goals rfl
  · simp [(ControllerConfig.holds_node hinner _).plain, (c.backends.holds_node f).plain]

end AppConfig

end Convergence
