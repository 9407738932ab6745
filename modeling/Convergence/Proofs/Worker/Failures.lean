import Convergence.Proofs.Worker.Backoff
import Convergence.Proofs.Worker.Beside
/-!
# Dispatches that fail

A dispatch fails if its handler ends with an error, or if what the handler reports cannot be taken
over: the store does not give the record or does not take it back, or the record refuses the report.
`Failure` lists these ways, each with its error.

In each of them nothing of a report is left on the record.  The error is noted on it, which takes
another read and another write.

The main results are

* `failed_dispatch`: after a dispatch that fails the record is as it was but for the note, if the
  store carries out the calls that this takes; the failure is counted, the marker held and a timer
  set in any case;
* `not_forall_noted`: without these calls the error is not noted.
-/

namespace Convergence.Worker

/-- How the end of a dispatch comes to an error, and to which one. -/
inductive Failure (store : Store) (clock : Timestamp) (i : Integration) :
    Outcome → ReconcileError → Prop where
  /-- The handler ended with an error. -/
  | failed (e : ReconcileError) : Failure store clock i (.failed e) e
  /-- The record cannot be read again. -/
  | unread {u : StatusUpdate} (hf : store.faults .fetch ≠ 0) :
      Failure store clock i (.report u) (.store (Store.faultOf .fetch))
  /-- The record refuses the report. -/
  | refused {u : StatusUpdate} {e : RecordError} (hf : store.faults .fetch = 0)
      (he : i.applyUpdate u clock = .error e) : Failure store clock i (.report u) (.record e)
  /-- The record cannot be written. -/
  | unwritten {u : StatusUpdate} {j : Integration} (hf : store.faults .fetch = 0)
      (hj : i.applyUpdate u clock = .ok j) (hu : store.faults .update ≠ 0) :
      Failure store clock i (.report u) (.store (Store.faultOf .update))

variable {store : Store} {clock : Timestamp} {id : IntegrationId} {i : Integration} {o : Outcome}
  {e : ReconcileError}

/-- The end of a dispatch comes to an error in these ways and in no other. -/
theorem verdict_eq_error_iff (hi : store.record? id = some i) (hid : i.id = id) :
    (verdict store clock id o).1 = .error e ↔ Failure store clock i o e := by
  constructor
  · intro h
    cases o with
    | nothing => cases h
    | crashed => cases h
    | failed e' =>
      cases h
      exact .failed e
    | report u =>
      rw [verdict] at h
      by_cases hf : store.faults .fetch = 0
      · cases hj : i.applyUpdate u clock with
        | error e' =>
          simp only [apply, Store.fetch_of_faults_eq_zero hf, hi, hj] at h
          cases h
          exact .refused hf hj
        | ok j =>
          by_cases hu : store.faults .update = 0
          · rw [(apply_of_applyUpdate hf hu hi hid hj).1] at h
            cases h
          · simp only [apply, Store.fetch_of_faults_eq_zero hf, hi, hj] at h
            rw [Store.update_of_faults_ne_zero hu] at h
            cases h
            exact .unwritten hf hj hu
      · rw [apply, Store.fetch_of_faults_ne_zero hf] at h
        cases h
        exact .unread hf
  · intro h
    cases h with
    | failed => rfl
    | unread hf => rw [verdict, apply, Store.fetch_of_faults_ne_zero hf]
    | refused hf he => simp [verdict, apply, Store.fetch_of_faults_eq_zero hf, hi, he]
    | unwritten hf hj hu =>
      simp only [verdict, apply, Store.fetch_of_faults_eq_zero hf, hi, hj]
      rw [Store.update_of_faults_ne_zero hu]

/-- A failure is no breakdown. -/
lemma Failure.ne_crashed (h : Failure store clock i o e) : o ≠ .crashed := by
  cases h <;> simp

/-- What a failure leaves of the record: whatever was reported, nothing but the note of the error is
on it, and that only if the store, as it is after the failure, carries out a read and a write. -/
theorem record?_settle_of_failure (hk : store.Keyed) (hi : store.record? id = some i)
    (h : Failure store clock i o e) :
    (settle store clock id o).1 = .error e ∧
      (settle store clock id o).2.record? id =
        some (if (verdict store clock id o).2.faults .fetch = 0 ∧
            (verdict store clock id o).2.faults .update = 0 then
          i.recordFailure ("Error: " ++ e.message) clock else i) := by
  have hid : i.id = id := hk id i hi
  have herror := (verdict_eq_error_iff hi hid).2 h
  obtain ⟨-, huntouched⟩ := writtenOnce_verdict hk clock id o
  have hrecords := (huntouched (by rw [herror]; rfl)).records
  have hstill : (verdict store clock id o).2.record? id = some i := by
    rw [Store.record?, hrecords, ← Store.record?, hi]
  have hsettle : settle store clock id o =
      (.error e, recordError (verdict store clock id o).2 clock id e) := by
    rw [settle]
    split <;> next h' => simp_all
  rw [hsettle]
  exact ⟨rfl, record?_recordError_eq hstill hid clock e⟩

/-! ## Whole dispatches -/

variable {site s : Site} {h : Handler} {meanwhile : Site → Site} {d : State}

/-- The site once the handler is called for the record. -/
def called (site : Site) (h : Handler) (i : Integration) : Site :=
  { site with
    environment := (h.call (callOf site h i) site.environment).2
    serials := site.serials + 1 }

/-- The dispatch calls the handler for the record, to bring it to the state; when the call ends,
with this outcome, the site is `s`, with the record as it was, and the end comes to the error. -/
structure FailsWith (site : Site) (id : IntegrationId) (h : Handler) (meanwhile : Site → Site)
    (i : Integration) (d : State) (s : Site) (o : Outcome) (e : ReconcileError) : Prop where
  readable : site.store.faults .fetch = 0
  calls : Calls site.store id h i d
  later : meanwhile (called site h i) = s
  keyed : s.store.Keyed
  kept : s.store.record? id = some i
  outcome : ((h.call (callOf site h i) site.environment).1.finish s.environment).1 = o
  failure : Failure s.store s.clock i o e

/-- A dispatch that fails holds its marker, counts the failure and sets a timer. -/
lemma FailsWith.dispatch_eq (w : Worker) (hfails : FailsWith site id h meanwhile i d s o e) :
    w.dispatch site id h meanwhile =
      ((w.marked id ⟨d, id⟩).countFailure id).arm
        { s with
          environment := ((h.call (callOf site h i) site.environment).1.finish s.environment).2
          store := (settle s.store s.clock id o).2 } id := by
  obtain ⟨readable, hcalls, hlater, hk, hkept, houtcome, hfailure⟩ := hfails
  have hid : i.id = id := hk id i hkept
  have hcount := (record?_settle_of_failure hk hkept hfailure).1
  rw [dispatch_of_called w readable hcalls rfl hlater (Prod.ext houtcome rfl),
    if_neg hfailure.ne_crashed, conclude_eq, hcount, hid]
  rfl

/-- **A dispatch that fails changes nothing but the message.**  If nobody else writes the record
while its handler is at work, and the handler ends with an error or its report cannot be taken over,
then the record is afterwards as it was, with the error as its message and the time of the note, or
just as it was if the store fails to read or to write it for the note; and so are all other records.
The failure is counted, the one marker held of the integration is that of the dispatch, and a timer
is set that is due after the delay for the new count. -/
theorem failed_dispatch (w : Worker) (hfails : FailsWith site id h meanwhile i d s o e) :
    let after := w.dispatch site id h meanwhile
    let tried := (verdict s.store s.clock id o).2
    after.2.store.record? id =
        some (if tried.faults .fetch = 0 ∧ tried.faults .update = 0 then
          { i with
            statusMessage := some ("Error: " ++ e.message)
            lastUpdated := some s.clock }
        else i) ∧
      (∀ other, other ≠ id → after.2.store.record? other = s.store.record? other) ∧
      after.1.failuresOf id = min (w.failuresOf id + 1) mostFailures ∧
      (∀ d', after.1.markers.contains ⟨d', id⟩ = true ↔ d' = d) ∧
      ∃ t ∈ after.1.timers, t.id = id ∧ after.1.pending.find? id = some t.serial ∧
        t.due = s.moment + milliseconds
          (w.config.retry.delay w.config.recheckInterval (after.1.failuresOf id)) := by
  intro after tried
  have hafter : after = _ := hfails.dispatch_eq w
  have hk := hfails.keyed
  obtain ⟨-, hrecord⟩ := record?_settle_of_failure hk hfails.kept hfails.failure
  have hfailures : after.1.failuresOf id = min (w.failuresOf id + 1) mostFailures := by
    rw [hafter]
    show ((w.failures.insert id _).find? id).getD 0 = _
    rw [Dict.find?_insert_self]
    rfl
  refine ⟨?_, fun other hne => ?_, hfailures, fun d' => ?_, ?_⟩
  · rw [hafter]
    exact hrecord
  · rw [hafter]
    exact (amends_settle hk s.clock id o).others other hne
  · rw [hafter]
    show ((w.markers.eraseId id).insert ⟨d, id⟩).contains ⟨d', id⟩ = true ↔ _
    rw [Markers.contains_insert]
    simp [Markers.contains, Markers.eraseId]
  · refine ⟨⟨s.serials, id, s.moment + milliseconds (((w.marked id ⟨d, id⟩).countFailure
      id).followUpDelay id)⟩, ?_, rfl, ?_, ?_⟩
    · rw [hafter]
      exact TimersSound.mem_timers_arm.2 (Or.inr rfl)
    · rw [hafter]
      exact Dict.find?_insert_self _ _ _
    · rw [hafter]
      rfl

/-! ## A promotion that is refused -/

/-- A record whose first revision is active, after a part of its setup. -/
def activeRecord : Integration :=
  { Workplace.draftedRecord with
    revisions := [{ version := some 1, currentState := .active, targetState := .active }]
    stepsDone := ["source_repo"] }

/-- A site whose store holds that record only. -/
def activeSite : Site :=
  { Workplace.draftedSite with store := { records := Dict.empty.insert "x" activeRecord } }

/-- A report that promotes the first revision with other steps, and says more than that. -/
def conflictingUpdate : StatusUpdate where
  version := 1
  state := .active
  message := some "deployed"
  stepsDone := ["source_repo", "provisioning"]
  gitRepo := some "https://git.local/orders-sync.git"
  promoted := some { version := some 1, spec := { steps := [{ kind := "log", name := "a" }] } }

/-- A handler that reports this. -/
def conflictingHandler : Handler :=
  .scripted 0 "conflicting" [.active] [{ outcome := .report conflictingUpdate }]

lemma failsWith_conflictingHandler :
    FailsWith activeSite "x" conflictingHandler (fun s => s) activeRecord .active
      (called activeSite conflictingHandler activeRecord) (.report conflictingUpdate)
      (.record (.immutableRevision 1)) where
  readable := rfl
  calls := ⟨by decide, rfl, by decide, by decide⟩
  later := rfl
  keyed := Store.keyed_singleton activeRecord
  kept := by decide
  outcome := rfl
  failure := .refused rfl (by decide)

/-- The third failure in a row is counted, and of the report nothing is left. -/
theorem conflict_noted :
    let after := ({ failures := Dict.empty.insert "x" 2 } : Worker).dispatch activeSite "x"
      conflictingHandler fun s => s
    after.2.store.record? "x" = some
        { activeRecord with
          statusMessage := some "Error: revision 1 is active and can no longer be changed"
          lastUpdated := some activeSite.clock } ∧
      after.1.failuresOf "x" = 3 := by
  obtain ⟨hrecord, -, hfailures, -⟩ :=
    failed_dispatch { failures := Dict.empty.insert "x" 2 } failsWith_conflictingHandler
  have hmessage : "Error: " ++ (ReconcileError.record (.immutableRevision 1)).message =
      "Error: revision 1 is active and can no longer be changed" := by decide +kernel
  rw [if_pos ⟨rfl, rfl⟩, hmessage] at hrecord
  exact ⟨hrecord, hfailures⟩

/-! ## An error that is not noted -/

/-- The next write of the record fails. -/
def unwritableSite : Site :=
  { Workplace.draftedSite with store := Workplace.draftedSite.store.failNext .update 1 }

lemma failsWith_unwritable :
    FailsWith unwritableSite "x" Workplace.failingHandler (fun s => s) Workplace.draftedRecord
      .active (called unwritableSite Workplace.failingHandler Workplace.draftedRecord)
      (.failed (.handlerFailed "failing" "no luck")) (.handlerFailed "failing" "no luck") where
  readable := rfl
  calls := ⟨by decide, rfl, by decide, by decide⟩
  later := rfl
  keyed := Store.keyed_singleton Workplace.draftedRecord
  kept := by decide
  outcome := rfl
  failure := .failed _

/-- It is not so that the error is noted after every dispatch that fails. -/
theorem not_forall_noted : ¬ ∀ (w : Worker) (site s : Site) (id : IntegrationId) (h : Handler)
    (meanwhile : Site → Site) (i : Integration) (d : State) (o : Outcome) (e : ReconcileError),
    FailsWith site id h meanwhile i d s o e →
    (w.dispatch site id h meanwhile).2.store.record? id = some
      { i with
        statusMessage := some ("Error: " ++ e.message)
        lastUpdated := some s.clock } := by
  intro hall
  have hnoted := hall {} _ _ _ _ _ _ _ _ _ failsWith_unwritable
  have hkept : (({} : Worker).dispatch unwritableSite "x" Workplace.failingHandler
      fun s => s).2.store.record? "x" = some Workplace.draftedRecord := by decide
  cases hkept.symm.trans hnoted

end Convergence.Worker
