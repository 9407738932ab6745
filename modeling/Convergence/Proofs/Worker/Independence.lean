import Convergence.Proofs.Activation.Locality
import Convergence.Proofs.Dict
import Convergence.Proofs.Worker.Beside
/-!
# Dispatches of different integrations

What a dispatch leaves of its integration depends on what there was of it, on what the backends hold
under its resource name, on the clock and on the secrets made up in the call (`local_fulfil`).
A dispatch of another integration leaves the first two alone if that goes by another resource name
(`sameOf_fulfil`, `sameUnder_fulfil`), and the clock and the secrets are given.  So two such
dispatches come to the same in either order (`fulfil_comm`).

`commands_independent` states both: what a single command leaves alone, and that the order of two
dispatches does not matter.
-/

namespace Convergence

/-! ## What is settled if no call fails -/

namespace Worker

variable {store : Store} {clock : Timestamp} {id : IntegrationId}

/-- How a call is settled if the store serves: whether it counts as failed or what went wrong, and
what becomes of the record. -/
def settled (found : Option Integration) (clock : Timestamp) :
    Outcome → Except ReconcileError Bool × Option Integration
  | .report u =>
    match found with
    | none => (.ok u.failed, none)
    | some i =>
      match i.applyUpdate u clock with
      | .ok j => (.ok u.failed, some j)
      | .error e =>
        (.error (.record e),
          some (i.recordFailure ("Error: " ++ (ReconcileError.record e).message) clock))
  | .failed e =>
    (.error e, found.map fun i => i.recordFailure ("Error: " ++ e.message) clock)
  | .nothing | .crashed => (.ok false, found)

lemma recordError_of_served (hk : store.Keyed) (hf : ∀ call, store.faults call = 0)
    (clock : Timestamp) (id : IntegrationId) (e : ReconcileError) :
    (recordError store clock id e).record? id
      = (store.record? id).map fun i => i.recordFailure ("Error: " ++ e.message) clock := by
  cases hi : store.record? id with
  | none =>
    rw [recordError, Store.fetch_of_faults_eq_zero (hf .fetch), hi]
    exact hi
  | some i =>
    rw [record?_recordError_eq hi (hk id i hi), if_pos ⟨hf .fetch, hf .update⟩]
    rfl

lemma settle_of_served (hk : store.Keyed) (hf : ∀ call, store.faults call = 0)
    (clock : Timestamp) (id : IntegrationId) (o : Outcome) :
    ((settle store clock id o).1, (settle store clock id o).2.record? id)
      = settled (store.record? id) clock o := by
  cases o with
  | nothing | crashed => rfl
  | failed e =>
    simp only [settle, verdict, settled, recordError_of_served hk hf]
  | report u =>
    have hread := Store.fetch_of_faults_eq_zero (hf .fetch) id
    rw [settle, verdict]
    cases hi : store.record? id with
    | none => simp [apply, hread, settled, hi]
    | some i =>
      simp only [settled]
      cases hj : i.applyUpdate u clock with
      | error e => simp [apply, hread, hj, recordError_of_served hk hf, hi]
      | ok j =>
        obtain ⟨happly, hrecords⟩ :=
          apply_of_applyUpdate (hf .fetch) (hf .update) hi (hk id i hi) hj
        simp [happly, Store.record?, hrecords]

/-! ## What the worker comes to hold of the integration -/

namespace SameOf

variable {w w' : Worker}

lemma marked (h : w.SameOf id w') (m : Marker) : (w.marked id m).SameOf id (w'.marked id m) := by
  refine ⟨fun d' => ?_, h.failures⟩
  rw [Bool.eq_iff_iff, Worker.marked, Worker.marked, Markers.contains_insert,
    Markers.contains_insert]
  simp [Markers.contains, Markers.eraseId]

lemma tally (h : w.SameOf id w') (r : Except ReconcileError Bool) :
    (w.tally id r).SameOf id (w'.tally id r) := by
  have hcount : (w.countFailure id).SameOf id (w'.countFailure id) :=
    ⟨h.markers, by simp [countFailure, failuresOf, h.failures]⟩
  rcases r with e | _ | _
  · exact hcount
  · exact ⟨h.markers, by simp [Worker.tally]⟩
  · exact hcount

lemma dropStale (h : w.SameOf id w') {found : Option Integration}
    (hid : ∀ i, found = some i → i.id = id) :
    (w.dropStale found).SameOf id (w'.dropStale found) := by
  cases found with
  | none => exact h
  | some i =>
    simp only [Worker.dropStale]
    split
    · exact h
    · exact ⟨fun d => by simp [Markers.contains, Markers.eraseId, hid i rfl], h.failures⟩

end SameOf

end Worker

/-! ## Dispatches at a fixed time -/

/-- The site when the clock shows this. -/
def Site.at (s : Site) (clock : Timestamp) : Site := { s with clock }

namespace Worker

variable {s s' : Store} {id : IntegrationId} {h : Handler} {i j : Integration} {d d' : State}

/-- Whether the handler is called is seen from the record. -/
lemma calls_congr (hrecord : s'.record? id = s.record? id) :
    Calls s' id h i d ↔ Calls s id h i d := by
  rw [← target?_eq_some_iff, ← target?_eq_some_iff, hrecord]

lemma Calls.unique (hi : Calls s id h i d) (hj : Calls s id h j d') : i = j ∧ d = d' := by
  have hsame := (target?_eq_some_iff.2 hi).symm.trans (target?_eq_some_iff.2 hj)
  simpa using hsame

/-- How a dispatch ends that calls one of the two handlers. -/
lemma dispatch_of_duty (w : Worker) {site : Site} {duty : Duty} (hf : site.store.faults .fetch = 0)
    (hcalls : Calls site.store id duty.handler i d) (clock : Timestamp) {r : Outcome × Environment}
    (hr : duty.attempt (callOf site duty.handler i) site.environment = r) :
    w.dispatch site id duty.handler (·.at clock)
      = ((w.marked id ⟨d, i.id⟩).tally id (settle site.store clock id r.1).1).arm
        { site with
          clock
          serials := site.serials + 1
          environment := r.2
          store := (settle site.store clock id r.1).2 } id := by
  have hnever : r.1 ≠ .crashed := by
    rw [← hr]
    exact duty.attempt_ne_crashed _ _
  have hcalled : w.dispatch site id duty.handler (·.at clock) = _ :=
    dispatch_of_called w hf hcalls (duty.call_handler _ _) rfl hr
  rw [if_neg hnever, conclude_eq] at hcalled
  exact hcalled

end Worker

/-- What a dispatch reads of the clock, and the secrets that are made up in it. -/
structure Occasion where
  /-- What the clock shows when the handler is called. -/
  begun : Timestamp
  /-- What it shows when the handler has ended. -/
  ended : Timestamp
  /-- Milliseconds since the start. -/
  moment : Nat
  /-- The secrets, in the order in which they are made up. -/
  secrets : Nat → String

/-- A dispatch of an integration for one of the two handlers, on a given occasion. -/
structure Execution where
  id : IntegrationId
  duty : Duty
  occasion : Occasion

namespace Environment

/-- The next secrets are these. -/
def supplied (e : Environment) (secrets : Nat → String) : Environment :=
  { e with secretAt := fun k => secrets (k - e.minted) }

lemma faultless_supplied {e : Environment} (h : e.Faultless) (secrets : Nat → String) :
    (e.supplied secrets).Faultless := ⟨h.provisioner, h.sourceControl⟩

lemma alike_supplied {name : String} {e e' : Environment} (h : e.SameUnder name e')
    (hsettings : e'.settings = e.settings) (hf : e.Faultless) (hf' : e'.Faultless)
    (secrets : Nat → String) : (e.supplied secrets).Alike name (e'.supplied secrets) where
  same := ⟨h.repository, h.deployment⟩
  settings := hsettings
  secrets := fun k => by simp [supplied]
  faultless := faultless_supplied hf secrets
  faultless' := faultless_supplied hf' secrets

end Environment

/-- The site on an occasion. -/
def Site.on (s : Site) (o : Occasion) : Site :=
  { s with
    clock := o.begun
    moment := o.moment
    environment := s.environment.supplied o.secrets }

namespace Execution

/-- What the handler is called with for a record. -/
def call (x : Execution) (i : Integration) : Call :=
  { integration := i
    revision := x.duty.handler.select i
    clock := x.occasion.begun
    moment := x.occasion.moment }

/-- How the call ends, and what it leaves of the backends. -/
def result (x : Execution) (i : Integration) (e : Environment) : Outcome × Environment :=
  x.duty.attempt (x.call i) (e.supplied x.occasion.secrets)

end Execution

namespace Workplace

open Worker (Calls)

/-- What comes of an execution. -/
def fulfil (p : Workplace) (x : Execution) : Workplace :=
  ({ p with site := p.site.on x.occasion } : Workplace).carryOut (.dispatch x.id x.duty.handler)
    (·.at x.occasion.ended)

lemma fulfil_eq (p : Workplace) (x : Execution) : p.fulfil x =
    of (p.worker.dispatch (p.site.on x.occasion) x.id x.duty.handler (·.at x.occasion.ended)) := rfl

/-- The worker is idle, records are under their ids, and no call is made to fail. -/
structure Dependable (p : Workplace) : Prop where
  idle : p.worker.attempt = none
  keyed : p.site.store.Keyed
  store : ∀ call, p.site.store.faults call = 0
  backends : p.site.environment.Faultless

variable {p q : Workplace} {x y : Execution} {id : IntegrationId} {name : String}

namespace SameOf

lemma symm (h : p.SameOf id q) : q.SameOf id p := ⟨h.record.symm, h.worker.symm⟩

lemma trans {r : Workplace} (h : p.SameOf id q) (h' : q.SameOf id r) : p.SameOf id r :=
  ⟨h'.record.trans h.record, h.worker.trans h'.worker⟩

end SameOf

/-- What an execution makes of a workplace: the handler is not called, and markers may be dropped;
or it is called, and how the call ends is taken over. -/
inductive Fulfilled (p : Workplace) (x : Execution) (q : Workplace) : Prop where
  | uncalled (hno : ∀ i d, ¬ Calls p.site.store x.id x.duty.handler i d)
      (hworker : q.worker = p.worker.dropStale (p.site.store.record? x.id))
      (hstore : q.site.store = p.site.store)
      (henvironment : q.site.environment = p.site.environment.supplied x.occasion.secrets)
  | called {i : Integration} {d : State} (hcalls : Calls p.site.store x.id x.duty.handler i d)
      {s : Site} {r : Except ReconcileError Bool × Store}
      (hr : r = Worker.settle p.site.store x.occasion.ended x.id
        (x.result i p.site.environment).1)
      (hworker : q.worker = (((p.worker.marked x.id ⟨d, i.id⟩).tally x.id r.1).arm s x.id).1)
      (hstore : q.site.store = r.2)
      (henvironment : q.site.environment = (x.result i p.site.environment).2)

lemma fulfilled (h : p.Dependable) (x : Execution) : p.Fulfilled x (p.fulfil x) := by
  have hf : (p.site.on x.occasion).store.faults .fetch = 0 := h.store .fetch
  by_cases hcalls : ∃ i d, Calls p.site.store x.id x.duty.handler i d
  · obtain ⟨i, d, hcalls⟩ := hcalls
    have hsite : Calls (p.site.on x.occasion).store x.id x.duty.handler i d := hcalls
    rw [fulfil_eq, Worker.dispatch_of_duty p.worker hf hsite _ rfl]
    exact .called hcalls rfl rfl rfl rfl
  · have hno : ∀ i d, ¬ Calls (p.site.on x.occasion).store x.id x.duty.handler i d :=
      fun i d hid => hcalls ⟨i, d, hid⟩
    rw [fulfil_eq, Worker.dispatch_of_uncalled _ h.idle hf hno]
    exact .uncalled hno rfl rfl rfl

/-! ### What an execution leaves alone -/

lemma dependable_fulfil (h : p.Dependable) (x : Execution) : (p.fulfil x).Dependable := by
  have hidle : (p.fulfil x).worker.attempt = none := Worker.attempt_dispatch ..
  have hsupplied := Environment.faultless_supplied h.backends x.occasion.secrets
  cases fulfilled h x with
  | uncalled hno hworker hstore henvironment =>
    refine ⟨hidle, ?_, ?_, ?_⟩
    · rw [hstore]
      exact h.keyed
    · rw [hstore]
      exact h.store
    · rw [henvironment]
      exact hsupplied
  | @called i d hcalls s r hr hworker hstore henvironment =>
    have hamends := Worker.amends_settle h.keyed x.occasion.ended x.id
      (x.result i p.site.environment).1
    rw [← hr, ← hstore] at hamends
    refine ⟨hidle, hamends.keyed h.keyed, fun call => ?_, ?_⟩
    · exact Nat.eq_zero_of_le_zero ((hamends.faults call).trans_eq (h.store call))
    · rw [henvironment]
      exact (x.duty.settings_attempt _ hsupplied).2

lemma settings_fulfil (h : p.Dependable) (x : Execution) :
    (p.fulfil x).site.environment.settings = p.site.environment.settings := by
  have hsupplied := Environment.faultless_supplied h.backends x.occasion.secrets
  cases fulfilled h x with
  | uncalled hno hworker hstore henvironment =>
    rw [henvironment]
    rfl
  | called hcalls hr hworker hstore henvironment =>
    rw [henvironment]
    exact (x.duty.settings_attempt _ hsupplied).1

/-- An execution leaves other integrations as they were. -/
lemma sameOf_fulfil (h : p.Dependable) (x : Execution) (hne : id ≠ x.id) :
    p.SameOf id (p.fulfil x) := by
  have hkeeps : ∀ s : Site, (s.at x.occasion.ended).store = s.store := fun _ => rfl
  obtain ⟨hrecord, hworker⟩ := (spares_dispatch (p := ⟨p.worker, p.site.on x.occasion⟩) h.idle
    h.keyed hne x.duty.handler hkeeps).same
  exact ⟨hrecord, hworker⟩

/-- An execution leaves alone what the backends hold under other names than that of its
integration. -/
lemma sameUnder_fulfil (h : p.Dependable) (x : Execution)
    (hne : ∀ i, p.site.store.record? x.id = some i → resourceName i ≠ name) :
    p.site.environment.SameUnder name (p.fulfil x).site.environment := by
  have hsupplied : p.site.environment.SameUnder name
      (p.site.environment.supplied x.occasion.secrets) := ⟨rfl, rfl⟩
  cases fulfilled h x with
  | uncalled hno hworker hstore henvironment =>
    rw [henvironment]
    exact hsupplied
  | @called i d hcalls s r hr hworker hstore henvironment =>
    have hne : resourceName (x.call i).integration ≠ name := hne i hcalls.record
    rw [henvironment]
    exact hsupplied.trans (x.duty.sameUnder_attempt hne _)

/-! ### What an execution depends on -/

/-- What an execution leaves of its integration, and under the resource name of it, depends on
nothing else. -/
theorem local_fulfil (hp : p.Dependable) (hq : q.Dependable) (x : Execution) (h : p.SameOf x.id q)
    (hsettings : q.site.environment.settings = p.site.environment.settings)
    (hunder : ∀ i, p.site.store.record? x.id = some i →
      p.site.environment.SameUnder (resourceName i) q.site.environment) :
    (p.fulfil x).SameOf x.id (q.fulfil x) ∧ ∀ i, p.site.store.record? x.id = some i →
      (p.fulfil x).site.environment.SameUnder (resourceName i) (q.fulfil x).site.environment := by
  cases fulfilled hp x with
  | uncalled hno hworker hstore henvironment =>
    -- the record decides whether the handler is called, so in both places it is or it is not
    cases fulfilled hq x with
    | called hcalls' => exact absurd ((Worker.calls_congr h.record).1 hcalls') (hno _ _)
    | uncalled hno' hworker' hstore' henvironment' =>
      refine ⟨⟨?_, ?_⟩, fun i hi => ?_⟩
      · rw [hstore, hstore', h.record]
      · rw [hworker, hworker', h.record]
        exact h.worker.dropStale (hp.keyed x.id)
      · rw [henvironment, henvironment']
        exact ⟨(hunder i hi).repository, (hunder i hi).deployment⟩
  | @called i d hcalls s r hr hworker hstore henvironment =>
    cases fulfilled hq x with
    | uncalled hno' => exact absurd ((Worker.calls_congr h.record).2 hcalls) (hno' _ _)
    | @called i' d' hcalls' s' r' hr' hworker' hstore' henvironment' =>
      obtain ⟨rfl, rfl⟩ := hcalls.unique ((Worker.calls_congr h.record).1 hcalls')
      -- both calls are about the same record, and what they ask for is under its resource name
      have halike := Environment.alike_supplied (hunder i hcalls.record) hsettings hp.backends
        hq.backends x.occasion.secrets
      obtain ⟨hresult, hend⟩ := x.duty.local_attempt (c := x.call i) halike
      have hresult : (x.result i q.site.environment).1 = (x.result i p.site.environment).1 :=
        hresult
      have hsettled : (r'.1, r'.2.record? x.id) = (r.1, r.2.record? x.id) := by
        rw [hr, hr', Worker.settle_of_served hq.keyed hq.store, hresult, h.record,
          ← Worker.settle_of_served hp.keyed hp.store]
      obtain ⟨hverdict, hrecord⟩ := Prod.mk.inj hsettled
      refine ⟨⟨?_, ?_⟩, fun j hj => ?_⟩
      · rw [hstore, hstore', hrecord]
      · rw [hworker, hworker', hverdict]
        have hsame := (h.worker.marked ⟨d, i.id⟩).tally r.1
        exact ⟨hsame.markers, hsame.failures⟩
      · obtain rfl : i = j := Option.some.inj (hcalls.record.symm.trans hj)
        rw [henvironment, henvironment']
        exact hend.same

/-! ### Two executions -/

/-- What there is at the end: records, markers, counts of failures, deployments and
repositories. -/
structure SameEnd (p q : Workplace) : Prop where
  records : q.site.store.records = p.site.store.records
  markers : ∀ m, q.worker.markers.contains m = p.worker.markers.contains m
  failures : q.worker.failures = p.worker.failures
  deployments : q.site.environment.provisioner.deployments
    = p.site.environment.provisioner.deployments
  repositories : q.site.environment.sourceControl.repositories
    = p.site.environment.sourceControl.repositories

/-- The integrations of two executions go by different resource names. -/
def Apart (p : Workplace) (x y : Execution) : Prop :=
  x.id ≠ y.id ∧ ∀ i j, p.site.store.record? x.id = some i → p.site.store.record? y.id = some j →
    resourceName i ≠ resourceName j

lemma Apart.symm (h : p.Apart x y) : p.Apart y x :=
  ⟨h.1.symm, fun i j hi hj => (h.2 j i hj hi).symm⟩

/-- The integration of the first execution does not see in which order they take place. -/
lemma sameOf_swap (h : p.Dependable) (hxy : p.Apart x y) :
    ((p.fulfil x).fulfil y).SameOf x.id ((p.fulfil y).fulfil x) ∧
      ∀ i, p.site.store.record? x.id = some i →
        ((p.fulfil x).fulfil y).site.environment.SameUnder (resourceName i)
          ((p.fulfil y).fulfil x).site.environment := by
  have hx := dependable_fulfil h x
  have hy := dependable_fulfil h y
  have hbefore := sameOf_fulfil h y hxy.1
  have hafter := sameOf_fulfil hx y hxy.1
  have hrecord : (p.fulfil x).site.store.record? y.id = p.site.store.record? y.id :=
    (sameOf_fulfil h x hxy.1.symm).record
  -- the second execution leaves alone what the first depends on, and what the first has left
  obtain ⟨hsame, hunder⟩ := local_fulfil h hy x hbefore (settings_fulfil h y) fun i hi =>
    sameUnder_fulfil h y fun j hj => (hxy.2 i j hi hj).symm
  refine ⟨hafter.symm.trans hsame, fun i hi => ?_⟩
  have hspared : (p.fulfil x).site.environment.SameUnder (resourceName i)
      ((p.fulfil x).fulfil y).site.environment :=
    sameUnder_fulfil hx y fun j hj => (hxy.2 i j hi (hrecord ▸ hj)).symm
  exact hspared.symm.trans (hunder i hi)

/-- What neither integration has is left alone. -/
lemma sameOf_twice (h : p.Dependable) (x y : Execution) (hx : id ≠ x.id) (hy : id ≠ y.id) :
    p.SameOf id ((p.fulfil x).fulfil y) :=
  (sameOf_fulfil h x hx).trans (sameOf_fulfil (dependable_fulfil h x) y hy)

/-- What is under the name of neither integration is left alone. -/
lemma sameUnder_twice (h : p.Dependable) (hxy : p.Apart x y)
    (hx : ∀ i, p.site.store.record? x.id = some i → resourceName i ≠ name)
    (hy : ∀ i, p.site.store.record? y.id = some i → resourceName i ≠ name) :
    p.site.environment.SameUnder name ((p.fulfil x).fulfil y).site.environment := by
  have hrecord : (p.fulfil x).site.store.record? y.id = p.site.store.record? y.id :=
    (sameOf_fulfil h x hxy.1.symm).record
  exact (sameUnder_fulfil h x hx).trans
    (sameUnder_fulfil (dependable_fulfil h x) y fun j hj => hy j (hrecord ▸ hj))

/-- Dispatches of integrations with different resource names come to the same in either order. -/
theorem fulfil_comm (h : p.Dependable) (hxy : p.Apart x y) :
    ((p.fulfil x).fulfil y).SameEnd ((p.fulfil y).fulfil x) := by
  obtain ⟨hx, hxunder⟩ := sameOf_swap h hxy
  obtain ⟨hy, hyunder⟩ := sameOf_swap h hxy.symm
  have hof : ∀ id, ((p.fulfil x).fulfil y).SameOf id ((p.fulfil y).fulfil x) := by
    intro id
    by_cases hidx : id = x.id
    · exact hidx ▸ hx
    · by_cases hidy : id = y.id
      · exact hidy ▸ hy.symm
      · exact (sameOf_twice h x y hidx hidy).symm.trans (sameOf_twice h y x hidy hidx)
  have hunder : ∀ name, ((p.fulfil x).fulfil y).site.environment.SameUnder name
      ((p.fulfil y).fulfil x).site.environment := by
    intro name
    -- the name is the one of the first integration, or of the second, or of neither
    by_cases hnx : ∃ i, p.site.store.record? x.id = some i ∧ resourceName i = name
    · obtain ⟨i, hi, rfl⟩ := hnx
      exact hxunder i hi
    · by_cases hny : ∃ i, p.site.store.record? y.id = some i ∧ resourceName i = name
      · obtain ⟨i, hi, rfl⟩ := hny
        exact (hyunder i hi).symm
      · have hnx : ∀ i, p.site.store.record? x.id = some i → resourceName i ≠ name :=
          fun i hi hname => hnx ⟨i, hi, hname⟩
        have hny : ∀ i, p.site.store.record? y.id = some i → resourceName i ≠ name :=
          fun i hi hname => hny ⟨i, hi, hname⟩
        exact (sameUnder_twice h hxy hnx hny).symm.trans (sameUnder_twice h hxy.symm hny hnx)
  exact
    { records := Dict.ext_find? fun id => (hof id).record
      markers := fun m => (hof m.id).worker.markers m.desired
      failures := Dict.ext_find? fun id => (hof id).worker.failures
      deployments := Dict.ext_find? fun name => (hunder name).deployment
      repositories := Dict.ext_find? fun name => (hunder name).repository }

/-- **Commands of different integrations are independent.**  Let the worker be idle, as it is when
it takes the next command, and every record be filed under its id.

A check or a dispatch of an integration, with a handler that does not write the store, leaves alone
whatever is of another integration, and writes the store once at most, which is announced once.

If no call of the store or the backends is made to fail, dispatches of two integrations with
different resource names, for activation or deactivation, come to the same in either order, as long
as each sees the same clock and makes up the same secrets. -/
theorem commands_independent (idle : p.worker.attempt = none) (hk : p.site.store.Keyed) :
    (∀ (c : Command) (id : IntegrationId) (meanwhile : Site → Site), c.about = some id →
        (∀ s, (meanwhile s).store = s.store) →
        (∀ other, other ≠ id → p.Spares other (p.carryOut c meanwhile)) ∧
          p.site.store.WrittenOnce id (p.carryOut c meanwhile).site.store) ∧
      ∀ x y : Execution, (∀ call, p.site.store.faults call = 0) →
        p.site.environment.Faultless → p.Apart x y →
        ((p.fulfil x).fulfil y).SameEnd ((p.fulfil y).fulfil x) where
  left := fun _ _ _ hc hm =>
    ⟨fun _ h => spares_carryOut idle hk hc h hm, writtenOnce_carryOut idle hk hc hm⟩
  right := fun _ _ hstore hbackends hxy => fulfil_comm ⟨idle, hk, hstore, hbackends⟩ hxy

/-- A second record to be activated, beside the one of `Course.draftRecord`. -/
def billingRecord : Integration := { Course.draftRecord with id := "y", name := "Billing" }

/-- A store with both records. -/
def twoDrafts : Workplace where
  worker := {}
  site :=
    { store :=
        { records := (Dict.empty.insert "x" Course.draftRecord).insert "y" billingRecord }
      clock := Course.draftRecord.createdAt }

/-- The integration is activated, with this secret. -/
def activation (id : IntegrationId) (secret : String) : Execution where
  id
  duty := .activate Project.generator
  occasion :=
    { begun := Course.draftRecord.createdAt
      ended := Course.draftRecord.createdAt
      moment := 0
      secrets := fun _ => secret }

/-- Both are activated in either order, and a dispatch of the first leaves the second as it is. -/
theorem activated_in_either_order :
    twoDrafts.Spares "y"
        (twoDrafts.carryOut (.dispatch "x" (.activate Project.generator)) fun s => s) ∧
      ((twoDrafts.fulfil (activation "x" "a")).fulfil (activation "y" "b")).SameEnd
        ((twoDrafts.fulfil (activation "y" "b")).fulfil (activation "x" "a")) ∧
      ((twoDrafts.fulfil (activation "x" "a")).fulfil
        (activation "y" "b")).site.environment.provisioner.deployments.keys
          = ["billing", "orders-sync"] := by
  have hkeyed : twoDrafts.site.store.Keyed :=
    Store.keyed_insert (Store.keyed_singleton Course.draftRecord) billingRecord
  have hapart : twoDrafts.Apart (activation "x" "a") (activation "y" "b") := by
    refine ⟨by decide, fun i j hi hj => ?_⟩
    obtain rfl : Course.draftRecord = i := Option.some.inj (Eq.trans (by decide) hi)
    obtain rfl : billingRecord = j := Option.some.inj (Eq.trans (by decide) hj)
    decide
  obtain ⟨halone, hcomm⟩ := commands_independent (p := twoDrafts) rfl hkeyed
  exact ⟨(halone _ _ _ rfl fun _ => rfl).1 "y" (by decide),
    hcomm _ _ (fun _ => rfl) ⟨fun _ => rfl, rfl⟩ hapart, by decide +kernel⟩

end Workplace

end Convergence
