import Mathlib.Data.List.DropRight
import Convergence.Proofs.Worker.Timers
/-!
# How long an integration waits for its next check

The worker counts for each integration how many attempts have failed, and the timer that it sets at
the end of an attempt is due after the delay for that count.  What it should have counted can be
told from what happens alone: a step may show that a dispatch failed, that it did not, or that a
check found the record as wanted, and a `Finding` is one of these.  `Workplace.findings` is the log
of a run, and `Finding.setbacks` counts the failures of one integration at the end of a log, back to
its last finding of another kind.

The main results are

* `heeded`: what the worker does to its counts and its timers, given what a step shows;
* `Counted.step`: the counts of the worker are those of the log, as far as it counts;
* `delay_after_setbacks`: a timer is set at the end of a dispatch only, and it is due after the
  delay for the setbacks of its integration in the log.
-/

namespace Convergence

/-- What a step shows about an integration, as far as it matters for how long to wait. -/
inductive Finding where
  /-- A dispatch has come to its end; it failed or not. -/
  | dispatched (id : IntegrationId) (failed : Bool)
  /-- A check found the record as wanted. -/
  | converged (id : IntegrationId)
deriving DecidableEq, Repr

namespace Finding

/-- The integration that a finding is about. -/
def id : Finding → IntegrationId
  | dispatched id _ => id
  | converged id => id

/-- A dispatch failed. -/
def isFailure : Finding → Bool
  | dispatched _ failed => failed
  | converged _ => false

/-- How many dispatches of the integration have failed since the last one that did not fail and
since the last check that found the record as wanted. -/
def setbacks (id : IntegrationId) (log : List Finding) : Nat :=
  ((log.filter (·.id == id)).rtakeWhile isFailure).length

variable {id : IntegrationId} {f : Finding} {log : List Finding}

@[simp] lemma setbacks_nil (id : IntegrationId) : setbacks id [] = 0 := by simp [setbacks]

/-- What is found about other integrations does not count. -/
lemma setbacks_concat_of_ne (h : f.id ≠ id) : setbacks id (log ++ [f]) = setbacks id log := by
  simp [setbacks, List.filter_append, h]

lemma setbacks_concat_self (f : Finding) (log : List Finding) :
    setbacks f.id (log ++ [f]) = if f.isFailure then setbacks f.id log + 1 else 0 := by
  have hkept : (log ++ [f]).filter (·.id == f.id) = log.filter (·.id == f.id) ++ [f] := by
    simp [List.filter_append]
  rw [setbacks, hkept, List.rtakeWhile_concat]
  split
  · rw [List.length_append, List.length_singleton, setbacks]
  · rfl

end Finding

/-! ## Attempts that fail -/

namespace Worker

variable {store : Store} {site : Site}

/-- A report can be taken over: the record can be read, and if there is one, it accepts the report
and can be written. -/
def takes (store : Store) (clock : Timestamp) (id : IntegrationId) (u : StatusUpdate) : Bool :=
  store.faults .fetch == 0 &&
    (store.record? id).all fun i => (i.applyUpdate u clock).isOk && store.faults .update == 0

/-- An attempt fails: the handler says so, or it ends in an error, or its report cannot be taken
over. -/
def fails (store : Store) (clock : Timestamp) (id : IntegrationId) : Outcome → Bool
  | .report u => u.failed || !takes store clock id u
  | .nothing => false
  | .failed _ => true
  | .crashed => false

/-- A report that can be taken over tells whether the attempt failed, and any other is an error. -/
lemma toOption_apply (hk : store.Keyed) (clock : Timestamp) (id : IntegrationId)
    (u : StatusUpdate) :
    (apply store clock id u).1.toOption =
      if takes store clock id u then some u.failed else none := by
  rcases store.enter_cases .fetch with ⟨n, hn, henter⟩ | ⟨hzero, _⟩
  · simp [apply, Store.fetch, henter, takes, hn, Except.toOption]
  cases hi : store.record? id with
  | none => simp [apply, Store.fetch_of_faults_eq_zero hzero, takes, hzero, hi, Except.toOption]
  | some i =>
    cases hj : i.applyUpdate u clock with
    | error e =>
      simp [apply, Store.fetch_of_faults_eq_zero hzero, takes, hi, hj, Except.isOk, Except.toBool,
        Except.toOption]
    | ok j =>
      by_cases hu : store.faults .update = 0
      · obtain ⟨happly, -⟩ := apply_of_applyUpdate hzero hu hi (hk id i hi) hj
        simp [happly, takes, hzero, hi, hj, hu, Except.isOk, Except.toBool, Except.toOption]
      · rw [apply, Store.fetch_of_faults_eq_zero hzero, hi]
        simp only [hj]
        rw [Store.update_of_faults_ne_zero hu]
        simp [takes, hi, hu, Except.toOption]

lemma fst_settle (store : Store) (clock : Timestamp) (id : IntegrationId) (o : Outcome) :
    (settle store clock id o).1 = (verdict store clock id o).1 := by
  rw [settle]
  split <;> next h => simp [h]

/-- The worker counts an attempt that fails, and forgets its count after one that does not. -/
lemma tally_settle (hk : store.Keyed) (clock : Timestamp) (w : Worker) (id : IntegrationId)
    (o : Outcome) :
    w.tally id (settle store clock id o).1 =
      if fails store clock id o then w.countFailure id
      else { w with failures := w.failures.erase id } := by
  rw [fst_settle]
  cases o with
  | nothing => rfl
  | failed e => rfl
  | crashed => rfl
  | report u =>
    have happly := toOption_apply hk clock id u
    rw [verdict]
    cases hr : (apply store clock id u).1 with
    | error e =>
      have hno : takes store clock id u = false := by
        simpa [hr, Except.toOption] using happly
      have hfails : fails store clock id (.report u) = true := by simp [fails, hno]
      rw [hfails]
      rfl
    | ok failed =>
      obtain ⟨htakes, rfl⟩ : takes store clock id u = true ∧ u.failed = failed := by
        simpa [hr, Except.toOption] using happly.symm
      have hfails : fails store clock id (.report u) = u.failed := by simp [fails, htakes]
      rw [hfails]
      cases u.failed <;> rfl

/-! ## Checks that find the record as wanted -/

/-- The check looks at a record and finds it as wanted; a notification that is held off by a marker
does not look. -/
def findsConverged (w : Worker) (store : Store) (id : IntegrationId) (trigger : Trigger) : Bool :=
  store.faults .fetch == 0 &&
    (store.record? id).any fun i =>
      i.desired.isSome && i.isConverged && !(trigger = .notification && w.isUnderWay i id)

lemma check_counts (w : Worker) (i : Integration) : (w.check i).timers = w.timers ∧
    (w.check i).failures =
      if i.desired.isSome && i.isConverged then w.failures.erase i.id else w.failures := by
  rw [check]
  cases hd : i.desired with
  | none => simp
  | some d =>
    by_cases hc : i.isConverged = true
    · simp [hc]
    · cases hl : w.registry.lookup? d <;> simp [hc, hl, enqueue]

/-- A check forgets the count of failures if it finds the record as wanted, and sets no timer. -/
lemma handleCheck_counts (hk : site.store.Keyed) (w : Worker) (id : IntegrationId)
    (trigger : Trigger) :
    (w.handleCheck site id trigger).1.timers = w.timers ∧
      (w.handleCheck site id trigger).1.failures =
        if w.findsConverged site.store id trigger then w.failures.erase id else w.failures := by
  obtain ⟨pending, hnote⟩ := w.noteFired_eq id trigger
  rw [noteFired] at hnote
  rw [handleCheck, hnote]
  rcases site.store.enter_cases .fetch with ⟨n, hn, henter⟩ | ⟨hzero, _⟩
  · simp [Store.fetch, henter, findsConverged, hn]
  rw [Store.fetch_of_faults_eq_zero hzero]
  cases hi : site.store.record? id with
  | none => simp [findsConverged, hi]
  | some i =>
    have hid : i.id = id := hk id i hi
    obtain ⟨htimers, hfailures⟩ := check_counts { w with pending } i
    have hunderWay : ({ w with pending } : Worker).isUnderWay i id = w.isUnderWay i id := rfl
    simp only [hunderWay, findsConverged, hi, hzero, Option.any_some]
    generalize (decide (trigger = .notification) && w.isUnderWay i id) = held
    cases held with
    | true => simp
    | false => simp [htimers, hfailures, hid]

/-- A dispatch whose record cannot be read counts as a failure and sets the timer. -/
lemma begin_of_fault (w : Worker) (id : IntegrationId) (h : Handler)
    (hf : site.store.faults .fetch ≠ 0) :
    w.begin site id h =
      (w.countFailure id).arm { site with store := (site.store.fetch id).2 } id := by
  rw [begin, Store.fetch_of_faults_ne_zero hf]

/-- A dispatch whose record can be read begins without counting anything or setting a timer. -/
lemma begin_counts (w : Worker) (id : IntegrationId) (h : Handler)
    (hf : site.store.faults .fetch = 0) :
    (w.begin site id h).1.timers = w.timers ∧ (w.begin site id h).1.failures = w.failures := by
  rw [begin, Store.fetch_of_faults_eq_zero hf]
  dsimp only
  split
  · simp only [dropStale]
    split
    · exact ⟨rfl, rfl⟩
    · split <;> exact ⟨rfl, rfl⟩
  · exact ⟨rfl, rfl⟩

end Worker

namespace Workplace

variable {p q : Workplace} {e : Event} {id : IntegrationId}

/-! ## What a run shows -/

/-- What is found if the event is next. -/
def finding? (p : Workplace) : Event → Option Finding
  | .work =>
    match p.worker.attempt, p.worker.queue with
    | some a, _ =>
      some (.dispatched a.id
        (Worker.fails p.site.store p.site.clock a.id (a.finish p.site.environment).1))
    | none, .dispatch id _ :: _ =>
      if p.site.store.faults .fetch = 0 then none else some (.dispatched id true)
    | none, .check id trigger :: _ =>
      if p.worker.findsConverged p.site.store id trigger then some (.converged id) else none
    | none, _ => none
  | _ => none

/-- What is found in a run of the events, the latest last. -/
def findings (p : Workplace) : List Event → List Finding
  | [] => []
  | e :: rest =>
    match p.step e with
    | some q => (p.finding? e).toList ++ q.findings rest
    | none => []

lemma findings_concat {es : List Event} (hrun : p.run es = some q) {q' : Workplace}
    (hs : q.step e = some q') :
    p.findings (es ++ [e]) = p.findings es ++ (q.finding? e).toList := by
  induction es generalizing p with
  | nil =>
    obtain rfl : p = q := by simpa using hrun
    simp [findings, hs]
  | cons first rest ih =>
    obtain ⟨r, hr, hrest⟩ : ∃ r, p.step first = some r ∧ r.run rest = some q := by
      simpa [run, List.foldlM_cons, Option.bind_eq_some_iff] using hrun
    simp only [List.cons_append, findings, hr, ih hrest, List.append_assoc]

/-- A dispatch that can read its record shows nothing when it begins, whether it is out of date or
calls its handler. -/
lemma finding?_of_dispatch {h : Handler} {rest : List Command} (idle : p.worker.attempt = none)
    (hq : p.worker.queue = .dispatch id h :: rest) (readable : p.site.store.faults .fetch = 0) :
    p.finding? .work = none := by
  simp [finding?, idle, hq, readable]

/-! ## What the worker makes of it -/

/-- What becomes of the counts and the timers of the worker, given what is found. -/
inductive Heeded (p : Workplace) : Option Finding → Workplace → Prop where
  | nothing {q : Workplace} (failures : q.worker.failures = p.worker.failures)
      (timers : ∀ t ∈ q.worker.timers, t ∈ p.worker.timers) : Heeded p none q
  | converged {id : IntegrationId} {q : Workplace}
      (failures : q.worker.failures = p.worker.failures.erase id)
      (timers : q.worker.timers = p.worker.timers) : Heeded p (some (.converged id)) q
  /-- The failure is counted, or the count is forgotten, and then a timer is set. -/
  | dispatched {id : IntegrationId} {failed : Bool} {w : Worker} {site : Site}
      (failures : w.failures = if failed then (p.worker.countFailure id).failures
        else p.worker.failures.erase id)
      (timers : w.timers = p.worker.timers) (pending : w.pending = p.worker.pending)
      (config : w.config = p.worker.config)
      (moment : site.moment = p.site.moment) (serials : site.serials = p.site.serials) :
      Heeded p (some (.dispatched id failed)) (of (w.arm site id))

/-- What the worker carries out next. -/
lemma of_step_work {c : Command} {rest : List Command} (idle : p.worker.attempt = none)
    (hq : p.worker.queue = c :: rest) (hs : p.step .work = some q) :
    q = of ({ p.worker with queue := rest }.handle p.site c) := by
  obtain ⟨hnext, -⟩ := step_eq_some.1 hs
  rw [next?, work] at hnext
  split at hnext
  · next a ha => cases idle.symm.trans ha
  · next hq' =>
    cases hq.symm.trans hq'
    exact (Option.some.inj hnext).symm
  · next hq' => cases hq.symm.trans hq'

/-- The worker heeds what a step shows. -/
theorem heeded (hk : p.site.store.Keyed) (hs : p.step e = some q) :
    Heeded p (p.finding? e) q := by
  cases stepped_of_step hs with
  | @concluded a o environment ha hf r store hr =>
    have hfinding : p.finding? .work
        = some (.dispatched a.id (Worker.fails p.site.store p.site.clock a.id o)) := by
      simp [finding?, ha, hf]
    have htally := Worker.tally_settle hk p.site.clock { p.worker with attempt := none } a.id o
    rw [hr] at htally
    rw [hfinding, htally]
    refine .dispatched ?_ ?_ ?_ ?_ rfl rfl <;> split <;> rfl
  | @checked id trigger rest w idle hq hc =>
    obtain ⟨htimers, hfailures⟩ :=
      Worker.handleCheck_counts hk { p.worker with queue := rest } id trigger
    have hfinding : p.finding? .work =
        if p.worker.findsConverged p.site.store id trigger then some (.converged id) else none := by
      simp [finding?, idle, hq]
    rw [of_step_work idle hq hs, hfinding]
    change _ = if p.worker.findsConverged p.site.store id trigger then _ else _ at hfailures
    split at hfailures
    · next hfinds =>
      rw [if_pos hfinds]
      exact .converged hfailures htimers
    · next hfinds =>
      rw [if_neg hfinds]
      exact .nothing hfailures fun t ht => htimers ▸ ht
  | @begun id h rest x idle hq hb =>
    rw [of_step_work idle hq hs]
    by_cases hf : p.site.store.faults .fetch = 0
    · obtain ⟨htimers, hfailures⟩ :=
        Worker.begin_counts { p.worker with queue := rest } id h hf
      rw [finding?_of_dispatch idle hq hf]
      exact .nothing hfailures fun t ht => htimers ▸ ht
    · have hfinding : p.finding? .work = some (.dispatched id true) := by
        simp [finding?, idle, hq, hf]
      have hbegin := Worker.begin_of_fault { p.worker with queue := rest } id h hf
      rw [hfinding, Worker.handle, hbegin]
      exact .dispatched rfl rfl rfl rfl rfl rfl
  | answered idle hq =>
    have hfinding : p.finding? .work = none := by simp [finding?, idle, hq]
    rw [hfinding]
    exact .nothing rfl fun _ ht => ht
  | fired ht => exact .nothing rfl fun _ hu => (List.mem_filter.1 hu).1
  | @told e c hc =>
    have hfinding : p.finding? e = none := by
      cases e with
      | work => cases hc
      | _ => rfl
    rw [hfinding]
    exact .nothing rfl fun _ ht => ht
  | written wr =>
    refine .nothing ?_ fun t ht => ?_
    · rw [worker_write]
      split <;> rfl
    · rw [worker_write] at ht
      split at ht <;> exact ht
  | failing call times => exact .nothing rfl fun _ ht => ht
  | drifted environment clock moment => exact .nothing rfl fun _ ht => ht

namespace Heeded

/-- The count of the integration that something is found about. -/
lemma failuresOf_self {f : Finding} (h : Heeded p (some f) q) :
    q.worker.failuresOf f.id =
      if f.isFailure then min (p.worker.failuresOf f.id + 1) Worker.mostFailures else 0 := by
  cases h with
  | converged failures timers =>
    simp [Worker.failuresOf, failures, Finding.id, Finding.isFailure]
  | @dispatched id failed w site failures =>
    have hsame : (of (w.arm site id)).worker.failures = w.failures := rfl
    cases failed <;>
      simp [Worker.failuresOf, hsame, failures, Worker.countFailure, Finding.id, Finding.isFailure]

/-- The other counts stay as they are. -/
lemma failuresOf_of_ne {found : Option Finding} (h : Heeded p found q)
    (hne : ∀ f, found = some f → f.id ≠ id) :
    q.worker.failuresOf id = p.worker.failuresOf id := by
  cases h with
  | nothing failures timers => rw [Worker.failuresOf, failures, Worker.failuresOf]
  | @converged other q failures timers =>
    have hother : id ≠ other := Ne.symm (hne _ rfl)
    rw [Worker.failuresOf, failures, Dict.find?_erase_of_ne _ hother, Worker.failuresOf]
  | @dispatched other failed w site failures =>
    have hother : id ≠ other := Ne.symm (hne _ rfl)
    have hsame : (of (w.arm site other)).worker.failures = w.failures := rfl
    rw [Worker.failuresOf, hsame, failures, Worker.failuresOf]
    split
    · rw [Worker.countFailure, Dict.find?_insert_of_ne _ _ hother]
    · rw [Dict.find?_erase_of_ne _ hother]

/-- A timer is set at the end of a dispatch only, and it is due after the delay for the count. -/
lemma due {found : Option Finding} (h : Heeded p found q) {t : Timer}
    (ht : t ∈ q.worker.timers) (hnew : t ∉ p.worker.timers) :
    (∃ failed, found = some (.dispatched t.id failed)) ∧
      t.due = p.site.moment + Worker.milliseconds
        (p.worker.config.retry.delay p.worker.config.recheckInterval
          (q.worker.failuresOf t.id)) := by
  cases h with
  | nothing failures timers => exact absurd (timers t ht) hnew
  | converged failures timers => exact absurd (timers ▸ ht) hnew
  | @dispatched id failed w site failures timers pending config moment serials =>
    rcases Worker.TimersSound.mem_timers_arm.1 ht with ⟨hold, -⟩ | rfl
    · exact absurd (timers ▸ hold) hnew
    · refine ⟨⟨failed, rfl⟩, ?_⟩
      rw [← moment, ← config]
      rfl

/-- At the end of a dispatch a timer is set. -/
lemma exists_timer {failed : Bool} (h : Heeded p (some (.dispatched id failed)) q)
    (hsound : p.TimersSound) : ∃ t ∈ q.worker.timers, t ∉ p.worker.timers ∧ t.id = id := by
  cases h with
  | @dispatched id failed w site failures timers pending config moment serials =>
    refine ⟨_, Worker.TimersSound.mem_timers_arm.2 (Or.inr rfl), fun hold => ?_, rfl⟩
    -- its number is not given to any timer yet
    have hlt := hsound.numbered _ hold
    exact absurd serials (Nat.ne_of_lt hlt)

end Heeded

/-- A check that finds the record as wanted queues nothing. -/
lemma queue_of_findsConverged {trigger : Trigger} {rest : List Command}
    (idle : p.worker.attempt = none) (hq : p.worker.queue = .check id trigger :: rest)
    (hfinds : p.worker.findsConverged p.site.store id trigger = true)
    (hs : p.step .work = some q) : q.worker.queue = rest := by
  simp only [Worker.findsConverged, Bool.and_eq_true, beq_iff_eq, Option.any_eq_true] at hfinds
  obtain ⟨hf, i, hi, ⟨hd, hconverged⟩, hlooks⟩ := hfinds
  obtain ⟨d, hd⟩ := Option.isSome_iff_exists.1 hd
  obtain ⟨hc, -⟩ := checked_of_step hs idle hq
  obtain ⟨pending, hnote⟩ := Worker.noteFired_eq { p.worker with queue := rest } id trigger
  rw [hnote] at hc
  rw [hc.eq_of_converged hf hi hd hconverged fun ht => by
    simpa [ht, Worker.isUnderWay, hd] using hlooks]

/-! ## Runs -/

/-- The counts of the worker are those of the log, as far as it counts. -/
structure Counted (config : ControllerConfig) (log : List Finding) (p : Workplace) : Prop where
  config : p.worker.config = config
  keyed : p.site.store.Keyed
  sound : p.TimersSound
  counts : ∀ id, p.worker.failuresOf id = min (Finding.setbacks id log) Worker.mostFailures

namespace Counted

variable {config : ControllerConfig} {log : List Finding}

/-- A step keeps the counts right. -/
theorem step (h : Counted config log p) (hs : p.step e = some q) :
    Counted config (log ++ (p.finding? e).toList) q := by
  refine ⟨(setup_of_step hs).config.trans h.config, keyed_of_step h.keyed hs, h.sound.step hs,
    fun id => ?_⟩
  have hheeded := heeded h.keyed hs
  cases hfound : p.finding? e with
  | none =>
    rw [hheeded.failuresOf_of_ne (by simp [hfound]), h.counts id]
    simp
  | some f =>
    rw [hfound] at hheeded
    by_cases hid : f.id = id
    · subst hid
      rw [hheeded.failuresOf_self, Option.toList_some, Finding.setbacks_concat_self, h.counts]
      split <;> omega
    · rw [hheeded.failuresOf_of_ne (by rintro _ ⟨⟩; exact hid), Option.toList_some,
        Finding.setbacks_concat_of_ne hid, h.counts id]

/-- So does a run; the induction is on the events, from the last one back. -/
theorem run {start : Workplace} (h : Counted config [] start) {es : List Event}
    (hrun : start.run es = some p) : Counted config (start.findings es) p := by
  induction es using List.reverseRecOn generalizing p with
  | nil =>
    obtain rfl : start = p := by simpa using hrun
    exact h
  | append_singleton es e ih =>
    rw [run_concat] at hrun
    obtain ⟨r, hr, hs⟩ := Option.bind_eq_some_iff.1 hrun
    rw [findings_concat hr hs]
    exact (ih hr).step hs

/-- A new worker has counted nothing. -/
lemma start (config : ControllerConfig) (registry : Registry) {site : Site}
    (hk : site.store.Keyed) : Counted config [] (start config registry site) := by
  obtain ⟨records, hscan, -⟩ := Worker.scan_eq { config, registry } site
  refine ⟨?_, keyed_start config registry hk, timersSound_start config registry site, fun id => ?_⟩
  · simp [Workplace.start, of, hscan]
  · simp [Workplace.start, of, hscan, Worker.failuresOf]

end Counted

/-- **The delay follows the failures in a row.**  Wherever a run has led and whatever is next, a
timer is set at the end of a dispatch only, one at the end of each, and it is due after the delay
for the setbacks of its integration in the log with the step, as far as the worker counts.  The
worker has counted just these setbacks for every integration.  They change only by what is found
about the integration, and nothing is found when a dispatch reads its record, out of date or not,
nor when a check queues a dispatch. -/
theorem delay_after_setbacks {config : ControllerConfig} {registry : Registry} {site : Site}
    (hk : site.store.Keyed) {es : List Event}
    (hrun : (start config registry site).run es = some p) (hs : p.step e = some q) :
    let before := (start config registry site).findings es
    let log := (start config registry site).findings (es ++ [e])
    (∀ t ∈ q.worker.timers, t ∉ p.worker.timers →
      (∃ failed, p.finding? e = some (.dispatched t.id failed)) ∧
        t.due = p.site.moment + Worker.milliseconds
          (config.retry.delay config.recheckInterval
            (min (Finding.setbacks t.id log) Worker.mostFailures))) ∧
    (∀ id failed, p.finding? e = some (.dispatched id failed) →
      ∃ t ∈ q.worker.timers, t ∉ p.worker.timers ∧ t.id = id) ∧
    (∀ id, q.worker.failuresOf id = min (Finding.setbacks id log) Worker.mostFailures) ∧
    (∀ id, (∀ f, p.finding? e = some f → f.id ≠ id) →
      Finding.setbacks id log = Finding.setbacks id before) ∧
    (e = .work → p.worker.attempt = none →
      (∀ id h rest, p.worker.queue = .dispatch id h :: rest → p.site.store.faults .fetch = 0 →
        p.finding? e = none) ∧
      ∀ id trigger rest, p.worker.queue = .check id trigger :: rest →
        rest.length < q.worker.queue.length → p.finding? e = none) := by
  intro before log
  have hcounted := (Counted.start config registry hk).run hrun
  have hlog : log = before ++ (p.finding? e).toList := findings_concat hrun hs
  have hafter := hcounted.step hs
  rw [← hlog] at hafter
  have hheeded := heeded hcounted.keyed hs
  refine ⟨fun t ht hnew => ?_, fun id failed hfound => ?_, hafter.counts, fun id hne => ?_, ?_⟩
  · have hdue := hheeded.due ht hnew
    rwa [hcounted.config, hafter.counts] at hdue
  · rw [hfound] at hheeded
    exact hheeded.exists_timer hcounted.sound
  · rw [hlog]
    cases hfound : p.finding? e with
    | none => simp
    | some f => exact Finding.setbacks_concat_of_ne (hne f hfound)
  · rintro rfl idle
    refine ⟨fun id h rest hq readable => finding?_of_dispatch idle hq readable,
      fun id trigger rest hq hgrown => ?_⟩
    by_cases hfinds : p.worker.findsConverged p.site.store id trigger = true
    · rw [queue_of_findsConverged idle hq hfinds hs] at hgrown
      omega
    · simp [finding?, idle, hq, hfinds]

/-! ## Two failures in a row -/

/-- A handler that always fails. -/
def failingHandler : Handler :=
  .scripted 0 "failing" [.active] [{ outcome := .failed (.handlerFailed "failing" "no luck") }]

/-- Delays that double from a minute up to an hour. -/
def doublingConfig : ControllerConfig := { retry := .exponential (.ofSeconds 3600) }

/-- The workplace where that handler is called for a record that is never as wanted. -/
def failingStart : Workplace :=
  start doublingConfig ⟨[(.active, failingHandler)]⟩ draftedSite

/-- The first call fails, its timer fires, and the next call begins. -/
def failingAgain : List Event := [.work, .work, .work, .fire 1, .work, .work]

/-- When that call has failed, too, the timer is due after four minutes. -/
theorem timer_after_two_failures : ∃ p q, failingStart.run failingAgain = some p ∧
    p.step .work = some q ∧ ∃ t ∈ q.worker.timers, t.id = "x" ∧ t.due = 4 * 60 * 1000 := by
  have hrun : (failingStart.run failingAgain).any (fun p => p.site.moment == 0 &&
      p.finding? .work == some (.dispatched "x" true) && (p.step .work).isSome) = true := by
    decide +kernel
  obtain ⟨p, hp, hnext⟩ := (Option.any_eq_true _ _).1 hrun
  simp only [Bool.and_eq_true, beq_iff_eq, Option.isSome_iff_exists] at hnext
  obtain ⟨⟨hmoment, hfound⟩, q, hs⟩ := hnext
  have hk : draftedSite.store.Keyed := Store.keyed_singleton draftedRecord
  obtain ⟨hdue, htimer, -⟩ := delay_after_setbacks hk hp hs
  obtain ⟨t, ht, hnew, hid⟩ := htimer "x" true hfound
  refine ⟨p, q, hp, hs, t, ht, hid, ?_⟩
  have hsetbacks : Finding.setbacks "x" (failingStart.findings (failingAgain ++ [.work])) = 2 := by
    decide +kernel
  have hdelay : t.due = p.site.moment + Worker.milliseconds
      (doublingConfig.retry.delay doublingConfig.recheckInterval
        (min (Finding.setbacks t.id (failingStart.findings (failingAgain ++ [.work])))
          Worker.mostFailures)) := (hdue t ht hnew).2
  rw [hdelay, hmoment, hid, hsetbacks]
  decide

end Workplace

end Convergence
