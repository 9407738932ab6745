import Convergence.Proofs.Config.Effective
import Convergence.Proofs.Delay
import Convergence.Proofs.Text.Blank
import Convergence.Proofs.Worker.Timers
/-!
# What an accepted configuration makes a controller do

A configuration comes from a file or from the defaults, is overridden by the environment, and is
validated last.  So whatever it is loaded from, its durations are whole seconds and at least one,
and the worker rests for a second at least before each follow-up check (`Accepted`).
`accepted_waits` says so of each way to load a configuration, and that nothing that can be read is
rejected for another reason than that it is not valid.
-/

namespace Convergence

/-- Whole seconds that are not zero are one at least. -/
lemma Duration.ofSeconds_one_le {d : Duration} (hwhole : d.subsecond = 0)
    (hpos : d.isZero = false) : ofSeconds 1 ≤ d := by
  have hone : (ofSeconds 1).nanos = 1000000000 := rfl
  have hne : d.nanos ≠ 0 := by simpa [isZero] using hpos
  rw [subsecond] at hwhole
  rw [le_def, hone]
  omega

lemma Worker.milliseconds_mono {d e : Duration} (h : d ≤ e) : milliseconds d ≤ milliseconds e := by
  rw [Duration.le_def] at h
  rw [milliseconds, milliseconds]
  omega

namespace ControllerConfig

/-- What is accepted as the configuration of a controller. -/
structure Accepted (c : ControllerConfig) : Prop where
  valid : c.validate = .ok ()
  /-- Both times to wait, and the longest delay of the policy if it has one, are whole seconds. -/
  whole : ∀ d ∈ c.durations, d.subsecond = 0
  positive : ∀ d ∈ c.durations, .ofSeconds 1 ≤ d
  named : ∃ ch ∈ c.subscriberName.toList, Text.isBlank ch = false
  delay : ∀ failures, .ofSeconds 1 ≤ c.retry.delay c.recheckInterval failures ∧
    c.retry.delay c.recheckInterval failures ≤ c.retry.ceiling c.recheckInterval
  /-- Whenever a worker with the configuration sets a timer, it rests for a second. -/
  rests : ∀ (w : Worker) (site : Site) (id : IntegrationId), w.config = c →
    ∀ t ∈ (w.arm site id).1.timers, t ∈ w.timers ∨ site.moment + 1000 ≤ t.due ∧
      t.due ≤ site.moment + Worker.milliseconds (c.retry.ceiling c.recheckInterval)

variable {c : ControllerConfig}

/-! ## Validation -/

/-- A configuration is valid if it waits for some time, whatever for, and its name is not blank. -/
lemma validate_eq_ok_iff : c.validate = .ok () ↔
    (∀ d ∈ c.durations, d.isZero = false) ∧
      ∃ ch ∈ c.subscriberName.toList, Text.isBlank ch = false := by
  have hname : (Text.trim c.subscriberName.toList).isEmpty = true ↔
      ¬ ∃ ch ∈ c.subscriberName.toList, Text.isBlank ch = false := by
    rw [List.isEmpty_iff, Text.trim_eq_nil_iff]
    simp
  rw [durations, List.forall_mem_cons, List.forall_mem_cons, validate]
  split
  · next hrecheck => simp [hrecheck]
  split
  · next hshutdown => simp [hshutdown]
  split
  · next hblank => simp only [hname.1 hblank, and_false, reduceCtorEq]
  · next hrecheck hshutdown hnamed =>
    rw [and_iff_left (not_not.1 (mt hname.2 hnamed)), and_iff_right (by simpa using hrecheck),
      and_iff_right (by simpa using hshutdown)]
    cases c.retry with
    | fixed => simp [RetryPolicy.durations]
    | exponential maxInterval => cases hz : maxInterval.isZero <;> simp [RetryPolicy.durations, hz]

/-- What is valid and in whole seconds is accepted. -/
lemma Accepted.of_valid (hvalid : c.validate = .ok ())
    (hwhole : ∀ d ∈ c.durations, d.subsecond = 0) : c.Accepted := by
  obtain ⟨hzero, hnamed⟩ := validate_eq_ok_iff.1 hvalid
  have hpositive : ∀ d ∈ c.durations, .ofSeconds 1 ≤ d :=
    fun d hd => Duration.ofSeconds_one_le (hwhole d hd) (hzero d hd)
  have hdelay : ∀ failures, .ofSeconds 1 ≤ c.retry.delay c.recheckInterval failures ∧
      c.retry.delay c.recheckInterval failures ≤ c.retry.ceiling c.recheckInterval := by
    intro failures
    have hrecheck : .ofSeconds 1 ≤ c.recheckInterval := hpositive _ (by simp [durations])
    exact ⟨Nat.le_trans hrecheck RetryPolicy.base_le_delay, RetryPolicy.delay_le_ceiling⟩
  refine ⟨hvalid, hwhole, hpositive, hnamed, hdelay, ?_⟩
  rintro w site id rfl t ht
  rcases Worker.TimersSound.mem_timers_arm.1 ht with ⟨hold, -⟩ | rfl
  · exact Or.inl hold
  · obtain ⟨hlow, hhigh⟩ := hdelay (w.failuresOf id)
    exact Or.inr ⟨Nat.add_le_add_left (Worker.milliseconds_mono hlow) _,
      Nat.add_le_add_left (Worker.milliseconds_mono hhigh) _⟩

/-! ## What is loaded -/

lemma valid_of_ofFile {file : File} (h : ofFile file = .ok c) :
    c.validate = .ok () ∧ ∀ d ∈ c.durations, d.subsecond = 0 := by
  rw [ofFile] at h
  split at h
  · cases h
  · split at h
    · cases h
    · next c' hdecode =>
      cases hvalid : c'.validate with
      | error e =>
        rw [hvalid] at h
        cases h
      | ok u =>
        rw [hvalid] at h
        cases h
        obtain ⟨f, n, hn⟩ := File.exists_node_of_decode? hdecode
        exact ⟨hvalid, whole_of_ofNode? f n c' hn⟩

end ControllerConfig

/-- What is read and overridden is loaded just if it is valid. -/
lemma AppConfig.load_of_source {file : Option File} {lookup : String → Option String}
    {before : AppConfig} {controller : ControllerConfig} (hsource : source file = .ok before)
    (hoverrides : before.controller.withOverrides lookup = .ok controller) :
    load file lookup = (controller.validate.mapError AppError.invalidController).map
      fun _ => { before with controller } := by
  rw [load_eq, hsource]
  change ((before.controller.withOverrides lookup).mapError AppError.invalidOverride >>= _) = _
  rw [hoverrides]
  change (controller.validate.mapError AppError.invalidController >>= _) = _
  cases controller.validate <;> rfl

/-- Every configuration that is loaded for a controller, from a file or as part of that of the
application, is accepted.  One that is read and overridden is loaded just if it is valid, and is
rejected just for what makes it invalid. -/
theorem accepted_waits :
    (∀ file c, ControllerConfig.ofFile file = .ok c → c.Accepted) ∧
    (∀ file lookup c, AppConfig.load file lookup = .ok c → c.controller.Accepted) ∧
    ∀ file lookup before controller, AppConfig.source file = .ok before →
      before.controller.withOverrides lookup = .ok controller →
      (AppConfig.load file lookup = .ok { before with controller } ↔
        controller.validate = .ok ()) ∧
      ∀ e, AppConfig.load file lookup = .error e ↔
        ∃ cause, controller.validate = .error cause ∧ e = .invalidController cause := by
  refine ⟨fun file c h => ?_, fun file lookup c h => ?_, ?_⟩
  · obtain ⟨hvalid, hwhole⟩ := ControllerConfig.valid_of_ofFile h
    exact .of_valid hvalid hwhole
  · obtain ⟨-, -, -, hvalid, -⟩ := AppConfig.load_eq_ok.1 h
    exact .of_valid hvalid (AppConfig.whole_of_load h)
  · intro file lookup before controller hsource hoverrides
    rw [AppConfig.load_of_source hsource hoverrides]
    cases controller.validate with
    | ok u => exact ⟨⟨fun _ => rfl, fun _ => rfl⟩, by simp [Except.mapError, Except.map]⟩
    | error cause =>
      exact ⟨by simp [Except.mapError, Except.map], by simp [Except.mapError, Except.map, eq_comm]⟩

/-- A configuration whose delays grow from five seconds to five minutes. -/
def patient : AppConfig where
  controller := { recheckInterval := .ofSeconds 5
                  shutdownTimeout := .ofSeconds 3
                  retry := .exponential (.ofSeconds 300) }

/-- A TOML text of it, but for the time to wait when stopping. -/
def patientText : String :=
  "[controller]\nrecheck_interval = 5\n\n[controller.retry]\nkind = \"exponential\"\n"
    ++ "max_interval = 300\n"

/-- Loaded from the text and the environment, it is accepted, and no delay is longer than five
minutes. -/
theorem patient_waits :
    AppConfig.load (some ⟨"app.toml", .ok patientText⟩)
        (fun v => if v = ControllerConfig.shutdownVariable then some " +3 " else none) =
      .ok patient ∧ patient.controller.Accepted ∧
    patient.controller.retry.ceiling patient.controller.recheckInterval = .ofSeconds 300 := by
  have h : AppConfig.load (some ⟨"app.toml", .ok patientText⟩)
      (fun v => if v = ControllerConfig.shutdownVariable then some " +3 " else none) =
        .ok patient := by decide +kernel
  exact ⟨h, accepted_waits.2.1 _ _ _ h, rfl⟩

end Convergence
