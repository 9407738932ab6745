import Convergence.Proofs.Worker.Report
/-!
# What a command does

`Checked` and `Begun` list what a check and the beginning of a dispatch can come to, each with what
it found in the store and how it leaves the worker; `finish_eq` says how a dispatch ends.  What
holds through all runs of a worker is derived from these lists.
-/

namespace Convergence

/-- The dispatch that a command is, if it is one. -/
def Command.dispatch? : Command → Option (IntegrationId × Handler)
  | .dispatch id handler => some (id, handler)
  | _ => none

namespace Worker

variable {w : Worker} {site : Site} {id : IntegrationId}

/-! ## The scan -/

lemma foldl_enqueue (records : List Integration) (w : Worker) :
    records.foldl (fun w i => w.enqueue (.check i.id .scan)) w
      = { w with queue := w.queue ++ records.map fun i => .check i.id .scan } := by
  induction records generalizing w with
  | nil => simp
  | cons i rest ih =>
    rw [List.foldl_cons, ih]
    simp [enqueue]

/-- A scan queues checks and does nothing else to the worker. -/
lemma scan_eq (w : Worker) (site : Site) : ∃ records : List Integration,
    w.scan site = ({ w with queue := w.queue ++ records.map fun i => .check i.id .scan },
        { site with store := site.store.fetchAll.2 }) ∧
      (site.store.faults .fetchAll = 0 → records = site.store.records.values) := by
  rw [scan]
  split
  · next records s h =>
    refine ⟨records, by rw [foldl_enqueue, h], fun hf => ?_⟩
    rw [Store.fetchAll_of_faults_eq_zero hf] at h
    cases h
    rfl
  · next e s h =>
    refine ⟨[], by simp [h], fun hf => ?_⟩
    rw [Store.fetchAll_of_faults_eq_zero hf] at h
    cases h

/-! ## Checks -/

/-- The worker after it took note that the check is the one of a timer. -/
def noteFired (w : Worker) (id : IntegrationId) (trigger : Trigger) : Worker :=
  if trigger = .followUp then { w with pending := w.pending.erase id } else w

lemma noteFired_eq (w : Worker) (id : IntegrationId) (trigger : Trigger) :
    ∃ pending, w.noteFired id trigger = { w with pending } := by
  rw [noteFired]
  split
  · exact ⟨_, rfl⟩
  · exact ⟨w.pending, rfl⟩

/-- What a worker is set up with is the same for both. -/
structure SameSetup (w w' : Worker) : Prop where
  config : w'.config = w.config
  registry : w'.registry = w.registry

/-- What a check of a record can come to. -/
inductive Checked (w : Worker) (store : Store) (id : IntegrationId) (trigger : Trigger) :
    Worker → Prop where
  /-- The record cannot be read. -/
  | unread (hf : store.faults .fetch ≠ 0) : Checked w store id trigger w
  /-- There is no record. -/
  | gone (hi : store.record? id = none) : Checked w store id trigger w
  /-- No state is wanted. -/
  | unwanted {i : Integration} (hi : store.record? id = some i) (hd : i.desired = none) :
      Checked w store id trigger w
  /-- The store announced a change, and an attempt is marked as under way. -/
  | held {i : Integration} {d : State} (hi : store.record? id = some i) (hd : i.desired = some d)
      (ht : trigger = .notification) (hm : w.markers.contains ⟨d, id⟩ = true) :
      Checked w store id trigger w
  /-- The record is as wanted. -/
  | converged {i : Integration} {d : State} (hi : store.record? id = some i)
      (hd : i.desired = some d) (hc : i.isConverged = true) :
      Checked w store id trigger
        { w with markers := w.markers.eraseId i.id, failures := w.failures.erase i.id }
  /-- There is no handler for what is wanted. -/
  | unhandled {i : Integration} {d : State} (hi : store.record? id = some i)
      (hd : i.desired = some d) (hc : i.isConverged = false)
      (hl : w.registry.lookup? d = none) : Checked w store id trigger w
  | dispatched {i : Integration} {d : State} {h : Handler} (hi : store.record? id = some i)
      (hd : i.desired = some d) (hc : i.isConverged = false)
      (hl : w.registry.lookup? d = some h)
      (hm : trigger = .notification → w.markers.contains ⟨d, id⟩ = false) :
      Checked w store id trigger (w.enqueue (.dispatch i.id h))

namespace Checked

variable {store : Store} {trigger : Trigger} {w' : Worker}

lemma timers (h : Checked w store id trigger w') : w'.timers = w.timers := by
  cases h <;> rfl

lemma pending (h : Checked w store id trigger w') : w'.pending = w.pending := by
  cases h <;> rfl

lemma attempt (h : Checked w store id trigger w') : w'.attempt = w.attempt := by
  cases h <;> rfl

lemma setup (h : Checked w store id trigger w') : w.SameSetup w' := by
  cases h <;> exact ⟨rfl, rfl⟩

lemma alive (h : Checked w store id trigger w') : w'.alive = w.alive := by
  cases h <;> rfl

/-- A check only adds to the queue. -/
lemma queue (h : Checked w store id trigger w') : ∃ added, w'.queue = w.queue ++ added := by
  cases h with
  | dispatched _ _ _ _ _ => exact ⟨_, rfl⟩
  | _ => exact ⟨[], (List.append_nil _).symm⟩

/-- A check that reads the record, is not held off, and finds it as wanted, comes to that. -/
lemma eq_of_converged (h : Checked w store id trigger w') {i : Integration} {d : State}
    (hf : store.faults .fetch = 0) (hi : store.record? id = some i) (hd : i.desired = some d)
    (hc : i.isConverged = true)
    (hm : trigger = .notification → w.markers.contains ⟨d, id⟩ = false) :
    w' = { w with markers := w.markers.eraseId i.id, failures := w.failures.erase i.id } := by
  cases h with
  | unread hfault => exact absurd hf hfault
  | gone hi' => cases hi.symm.trans hi'
  | unwanted hi' hd' =>
    cases hi.symm.trans hi'
    cases hd.symm.trans hd'
  | held hi' hd' ht hheld =>
    cases hi.symm.trans hi'
    cases hd.symm.trans hd'
    cases (hm ht).symm.trans hheld
  | converged hi' hd' hc' =>
    cases hi.symm.trans hi'
    rfl
  | unhandled hi' hd' hc' hl =>
    cases hi.symm.trans hi'
    cases hc.symm.trans hc'
  | dispatched hi' hd' hc' hl hm' =>
    cases hi.symm.trans hi'
    cases hc.symm.trans hc'

end Checked

lemma checked_check {store : Store} {trigger : Trigger} {i : Integration}
    (hi : store.record? id = some i) (hm : ¬(trigger = .notification ∧ w.isUnderWay i id = true)) :
    Checked w store id trigger (w.check i) := by
  rw [check]
  split
  · next hd => exact .unwanted hi hd
  · next d hd =>
    split
    · next hc => exact .converged hi hd hc
    · next hc =>
      have hc : i.isConverged = false := by simpa using hc
      split
      · next hl => exact .unhandled hi hd hc hl
      · next h hl =>
        refine .dispatched hi hd hc hl fun ht => ?_
        simpa [ht, isUnderWay, hd] using hm

/-- A check comes to one of the cases, and changes nothing but the worker. -/
theorem handleCheck_checked (w : Worker) (site : Site) (id : IntegrationId) (trigger : Trigger) :
    Checked (w.noteFired id trigger) site.store id trigger (w.handleCheck site id trigger).1 ∧
      (w.handleCheck site id trigger).2 = { site with store := (site.store.fetch id).2 } := by
  rw [handleCheck]
  rcases site.store.enter_cases .fetch with ⟨n, hn, henter⟩ | ⟨_, henter⟩
  · have hfetch : site.store.fetch id
        = (.error (Store.faultOf .fetch), site.store.failNext .fetch n) := by
      simp [Store.fetch, henter]
    rw [hfetch]
    exact ⟨.unread (by simp [hn]), rfl⟩
  · have hfetch : site.store.fetch id = (.ok (site.store.record? id), site.store) := by
      simp [Store.fetch, henter]
    rw [hfetch]
    cases hi : site.store.record? id with
    | none => exact ⟨.gone hi, rfl⟩
    | some i =>
      refine ⟨?_, rfl⟩
      change Checked (w.noteFired id trigger) site.store id trigger
        (if (trigger = .notification && (w.noteFired id trigger).isUnderWay i id)
          then w.noteFired id trigger else (w.noteFired id trigger).check i)
      split
      · next hm =>
        -- a notification about a record with a marker for what is wanted
        simp only [Bool.and_eq_true, decide_eq_true_eq] at hm
        cases hd : i.desired with
        | none => exact .unwanted hi hd
        | some d => exact .held hi hd hm.1 (by simpa [isUnderWay, hd] using hm.2)
      · next hm => exact checked_check hi (by simpa using hm)

/-! ## Dispatches -/

/-- What the beginning of a dispatch can come to. -/
inductive Begun (w : Worker) (site : Site) (id : IntegrationId) (h : Handler) :
    Worker × Site → Prop where
  /-- The record cannot be read. -/
  | unread (hf : site.store.faults .fetch ≠ 0) :
      Begun w site id h
        ((w.countFailure id).arm { site with store := (site.store.fetch id).2 } id)
  /-- There is no record. -/
  | gone (hi : site.store.record? id = none) : Begun w site id h (w, site)
  /-- No state is wanted. -/
  | unwanted {i : Integration} (hi : site.store.record? id = some i) (hd : i.desired = none) :
      Begun w site id h (w, site)
  /-- The record is as wanted, or something else is wanted now. -/
  | stale {i : Integration} {d : State} (hi : site.store.record? id = some i)
      (hd : i.desired = some d) (hs : i.isConverged = true ∨ h.handles d = false) :
      Begun w site id h ({ w with markers := w.markers.eraseId i.id }, site)
  /-- The handler is called. -/
  | called {i : Integration} {d : State} (hi : site.store.record? id = some i)
      (hd : i.desired = some d) (hc : i.isConverged = false) (hh : h.handles d = true)
      {call : Call} (hcall : call =
        { integration := i, revision := h.select i, clock := site.clock, moment := site.moment })
      {run : Run} {environment : Environment}
      (hrun : h.call call site.environment = (run, environment)) :
      Begun w site id h
        ({ w with
            markers := (w.markers.eraseId id).insert { desired := d, id := i.id }
            attempt := some
              { id, finish := run.finish, serial := site.serials, due := site.moment + run.wait } },
          { site with environment, serials := site.serials + 1 })

namespace Begun

variable {h : Handler} {x : Worker × Site}

lemma alive (hb : Begun w site id h x) : x.1.alive = w.alive := by
  cases hb <;> rfl

lemma queue (hb : Begun w site id h x) : x.1.queue = w.queue := by
  cases hb <;> rfl

/-- A call that begins is about the record of the dispatch. -/
lemma attempt (hb : Begun w site id h x) {a : Attempt} (ha : x.1.attempt = some a) :
    w.attempt = some a ∨ a.id = id := by
  cases hb with
  | called _ _ _ _ _ _ =>
    cases ha
    exact Or.inr rfl
  | _ => exact Or.inl ha

end Begun

/-- The beginning of a dispatch comes to one of the cases. -/
theorem begin_begun (w : Worker) (site : Site) (id : IntegrationId) (h : Handler) :
    Begun w site id h (w.begin site id h) := by
  rw [begin]
  rcases site.store.enter_cases .fetch with ⟨n, hn, henter⟩ | ⟨_, henter⟩
  · have hfetch : site.store.fetch id
        = (.error (Store.faultOf .fetch), site.store.failNext .fetch n) := by
      simp [Store.fetch, henter]
    have hb : Begun w site id h
        ((w.countFailure id).arm { site with store := (site.store.fetch id).2 } id) :=
      .unread (by simp [hn])
    rw [hfetch] at hb ⊢
    exact hb
  · have hfetch : site.store.fetch id = (.ok (site.store.record? id), site.store) := by
      simp [Store.fetch, henter]
    rw [hfetch]
    cases hi : site.store.record? id with
    | none => exact .gone hi
    | some i =>
      cases hd : i.desired with
      | none => simpa [target?, dropStale, hd] using Begun.unwanted hi hd
      | some d =>
        by_cases hs : i.isConverged = true ∨ h.handles d = false
        · have hs' : (i.isConverged || !h.handles d) = true := by simpa using hs
          simpa [target?, dropStale, hd, hs'] using Begun.stale hi hd hs
        · have hs' : (i.isConverged || !h.handles d) = false := by simpa using hs
          have hc : i.isConverged = false ∧ h.handles d = true := by simpa using hs
          simpa [target?, hd, hs'] using Begun.called hi hd hc.1 hc.2 rfl rfl

/-! ## Ends of dispatches -/

/-- The worker after the failures are counted. -/
def tally (w : Worker) (id : IntegrationId) : Except ReconcileError Bool → Worker
  | .ok false => { w with failures := w.failures.erase id }
  | .ok true => w.countFailure id
  | .error _ => w.countFailure id

lemma tally_eq (w : Worker) (id : IntegrationId) (r : Except ReconcileError Bool) :
    ∃ failures, w.tally id r = { w with failures } := by
  cases r with
  | ok failed => cases failed <;> exact ⟨_, rfl⟩
  | error e => exact ⟨_, rfl⟩

/-- A dispatch ends with what it writes, the count of failures, and a timer. -/
lemma conclude_eq (w : Worker) (site : Site) (id : IntegrationId) (o : Outcome) :
    w.conclude site id o = (w.tally id (settle site.store site.clock id o).1).arm
      { site with store := (settle site.store site.clock id o).2 } id := by
  rw [conclude, settle]
  split <;> next h => simp [h, tally]

/-- The end of a call: a handler that breaks down ends the worker, and every other one has its
dispatch concluded. -/
theorem finish_eq (w : Worker) (site : Site) (a : Attempt) {o : Outcome} {environment : Environment}
    (h : a.finish site.environment = (o, environment)) :
    w.finish site a =
      if o = .crashed then ({ w with attempt := none }.halt, { site with environment })
      else { w with attempt := none }.conclude { site with environment } a.id o := by
  simp only [finish, h]

end Worker

end Convergence
