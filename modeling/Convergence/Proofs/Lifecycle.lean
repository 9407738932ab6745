import Convergence.Proofs.Activation.Serving
import Convergence.Proofs.Activation.SetUpOnce
import Convergence.Proofs.Deactivation
import Convergence.Proofs.Record.History
import Convergence.Proofs.Registry
/-!
# Up and down, any number of times

An operator wants an integration to run, to be stopped, to be a draft again, to run again, and so
on.  After each order somebody asks for a check, and the worker carries out the check and the
dispatch that it queues.  If the backends serve and nobody interferes, that is enough each time.

The first order is to run, and it fixes what runs: the revision to act on is promoted, and from then
on the record is `Settled` on it.  A stop leaves the record settled and the deployment scaled to
zero, and the next start makes the deployment again, from the same revision, which is already
active.

The main results are

* `Standing.obey`: what one order does to an integration that is as the last order wanted it;
* `lifecycle_converges`: after every order of a sequence that begins with the one to run, the record
  is converged, and the deployment runs or is stopped accordingly.
-/

namespace Convergence

/-! ## Records with one revision to go on with -/

/-- The deployed revision is an active one with these contents, and the one to act on: there is no
draft.  No setup step is noted, and the token never expires. -/
structure Integration.Settled (spec : Spec) (v : Version) (i : Integration) : Prop where
  deployed : i.deployed = some v
  active : ∃ r, i.revision? v = some r ∧ r.currentState = .active ∧ r.spec = spec
  draft : i.draft = none
  stepsDone : i.stepsDone = []
  token : ∃ token, i.token = some token ∧ token.expiresAt = none

namespace Integration

variable {spec : Spec} {v : Version} {i j : Integration} {u : StatusUpdate} {now : Timestamp}

namespace Settled

lemma activeRevision? (h : i.Settled spec v) :
    ∃ r, i.activeRevision? = some r ∧ r.version = some v ∧ r.spec = spec := by
  obtain ⟨r, hr, -, hspec⟩ := h.active
  refine ⟨r, ?_, ?_, hspec⟩
  · simp [Integration.activeRevision?, h.deployed, hr]
  · simpa using List.find?_some hr

/-- The next start acts on the deployed revision. -/
lemma target (h : i.Settled spec v) :
    i.targetRevision.spec = spec ∧ i.versionFor i.targetRevision = v := by
  obtain ⟨r, hr, hversion, hspec⟩ := h.activeRevision?
  have htarget : i.targetRevision = r := by simp [targetRevision, h.draft, hr]
  rw [htarget]
  exact ⟨hspec, by simp [versionFor, hversion]⟩

/-- So does the next stop. -/
lemma version_select (h : i.Settled spec v) : (Deactivation.select i).version = some v := by
  obtain ⟨r, hr, hversion, -⟩ := h.activeRevision?
  have hselect : Deactivation.select i = r := by simp [Deactivation.select, hr]
  rw [hselect]
  exact hversion

lemma canActivate (h : i.Settled spec v) (hd : i.desired = some .active) : i.CanActivate := by
  refine ⟨hd, h.token, fun existing he _ => ?_⟩
  obtain ⟨hspec, hversion⟩ := h.target
  obtain ⟨r, hr, -, hsame⟩ := h.active
  rw [hversion] at he
  obtain rfl : r = existing := Option.some.inj (hr.symm.trans he)
  exact hsame.trans hspec.symm

/-- Another state may be wanted. -/
lemma want (h : i.Settled spec v) (d : State) : { i with desired := some d }.Settled spec v :=
  ⟨h.deployed, h.active, h.draft, h.stepsDone, h.token⟩

/-- A report that promotes nothing leaves the record settled. -/
lemma of_report (h : i.Settled spec v) (hu : u.promoted = none) (hsteps : u.stepsDone = [])
    (now : Timestamp) :
    ∃ j, i.applyUpdate u now = .ok j ∧ j.Settled spec v ∧ j.current = some u.state := by
  rw [applyUpdate_eq, hu]
  exact ⟨_, rfl, ⟨h.deployed, h.active, h.draft, hsteps, h.token⟩, rfl⟩

end Settled

/-- A report that promotes a revision settles the record on it. -/
lemma settled_of_promotion (happly : i.applyUpdate u now = .ok j) {r : Revision}
    (hu : u.promoted = some r) (hversion : r.version = some v) (hsteps : u.stepsDone = [])
    (htoken : ∃ token, i.token = some token ∧ token.expiresAt = none) : j.Settled r.spec v := by
  obtain ⟨k, ⟨hnone, -⟩ | ⟨r', v', hr', hpromote⟩, rfl⟩ := applyUpdate_eq_ok happly
  · cases hu.symm.trans hnone
  obtain rfl : r = r' := Option.some.inj (hu.symm.trans hr')
  obtain ⟨hv', history, hhistory, rfl⟩ := promote_eq_ok hpromote
  obtain rfl : v' = v := by simpa [versionFor, hversion] using hv'
  -- an active revision of the version was there and runs the same, or there is one now
  obtain ⟨s, hs, hactive, hspec⟩ := find?_promotedHistory rfl rfl hhistory
  exact ⟨rfl, ⟨s, hs, by simpa [Revision.isImmutable] using hactive, hspec⟩, rfl, hsteps, htoken⟩

end Integration

/-! ## Orders -/

/-- What the operator wants, and what the clock shows when it is taken care of. -/
structure Order where
  wanted : State
  clock : Timestamp

namespace Workplace

open Worker (Calls callOf)

/-- The operator writes what is wanted into the record. -/
def want (p : Workplace) (id : IntegrationId) (o : Order) : Workplace :=
  let store := match p.site.store.record? id with
    | some i => (p.site.store.update { i with desired := some o.wanted }).2
    | none => p.site.store
  { p with site := { p.site with store, clock := o.clock } }

/-- The worker carries out a check that somebody asked for, and then the dispatch that it queues, if
it does. -/
def tend (p : Workplace) (id : IntegrationId) : Workplace :=
  let checked := of (p.worker.handleCheck p.site id .manual)
  match checked.worker.queue with
  | .dispatch id h :: rest =>
    of ({ checked.worker with queue := rest }.dispatch checked.site id h fun s => s)
  | _ => checked

/-- An order is given and taken care of. -/
def obey (id : IntegrationId) (p : Workplace) (o : Order) : Workplace := (p.want id o).tend id

/-- Orders are given and taken care of one after another. -/
def obeyAll (id : IntegrationId) (p : Workplace) (os : List Order) : Workplace :=
  os.foldl (obey id) p

variable {generate : Project.Generator} {id : IntegrationId} {p : Workplace} {i j : Integration}
  {d : State} {spec : Spec} {v : Version}

/-- Nothing stands in the way of an order: the worker has nothing to do and knows both handlers, the
store works and has records under their own ids, and the backends serve. -/
structure Ready (generate : Project.Generator) (p : Workplace) : Prop where
  idle : p.worker.attempt = none
  quiet : p.worker.queue = []
  starts : p.worker.registry.lookup? .active = some (.activate generate)
  stops : ∀ s, Handler.deactivate.handles s = true →
    p.worker.registry.lookup? s = some .deactivate
  keyed : p.site.store.Keyed
  works : ∀ call, p.site.store.faults call = 0
  serves : p.site.environment.Serves

namespace Ready

/-- An order changes what is wanted, and nothing else. -/
lemma want (h : Ready generate p) (hi : p.site.store.record? id = some i) (o : Order) :
    Ready generate (p.want id o) ∧
      (p.want id o).site.store.record? id = some { i with desired := some o.wanted } ∧
      (p.want id o).site.environment = p.site.environment := by
  obtain rfl : i.id = id := h.keyed id i hi
  have hstore : (p.want i.id o).site.store
      = (p.site.store.update { i with desired := some o.wanted }).2 := by
    simp only [Workplace.want, hi]
  have hkeyed := (Write.update { i with desired := some o.wanted }).keyed_run h.keyed
  obtain ⟨-, hrecords⟩ := Store.update_of_faults_eq_zero (s := p.site.store)
    (i := { i with desired := some o.wanted }) (h.works .update) (by simp [hi])
  refine ⟨⟨h.idle, h.quiet, h.starts, h.stops, ?_, fun call => ?_, h.serves⟩, ?_, rfl⟩
  · rw [hstore]
    exact hkeyed
  · have hle := (Write.update { i with desired := some o.wanted }).faults_run_le p.site.store call
    rw [h.works call] at hle
    rw [hstore]
    exact Nat.le_zero.1 hle
  · rw [hstore, Store.record?, hrecords, Dict.find?_insert_self]

section Check

variable (hi : p.site.store.record? id = some i) (hd : i.desired = some d)

include hi hd

/-- A check of a record that is as wanted changes no record and no backend. -/
lemma tend_of_converged (h : Ready generate p) (hc : i.isConverged = true) :
    Ready generate (p.tend id) ∧ (p.tend id).site = p.site := by
  have hcheck : p.worker.handleCheck p.site id .manual
      = ({ p.worker with
          markers := p.worker.markers.eraseId i.id, failures := p.worker.failures.erase i.id },
        p.site) := by
    simp [Worker.handleCheck, Store.fetch_of_faults_eq_zero (h.works .fetch), hi, Worker.check, hd,
      hc]
  have htend : p.tend id = of (p.worker.handleCheck p.site id .manual) := by
    simp only [tend, of, hcheck, h.quiet]
  rw [htend, hcheck]
  exact ⟨⟨h.idle, h.quiet, h.starts, h.stops, h.keyed, h.works, h.serves⟩, rfl⟩

/-- If the record is not as wanted, the handler of what is wanted is dispatched. -/
lemma tend_of_unconverged (h : Ready generate p) (hc : i.isConverged = false) {handler : Handler}
    (hl : p.worker.registry.lookup? d = some handler) :
    p.tend id = of (p.worker.dispatch p.site id handler fun s => s) := by
  obtain rfl : i.id = id := h.keyed id i hi
  have hcheck : p.worker.handleCheck p.site i.id .manual
      = ({ p.worker with queue := [.dispatch i.id handler] }, p.site) := by
    simp [Worker.handleCheck, Store.fetch_of_faults_eq_zero (h.works .fetch), hi, Worker.check, hd,
      hc, hl, Worker.enqueue, h.quiet]
  have hworker : { p.worker with queue := [] } = p.worker := by rw [← h.quiet]
  simp only [tend, of, hcheck, hworker]

/-- What the handler reports is taken over, and then nothing stands in the way of the next order. -/
lemma tend_of_report (h : Ready generate p) (hc : i.isConverged = false) {handler : Handler}
    (hl : p.worker.registry.lookup? d = some handler) (hhandles : handler.handles d = true)
    {u : StatusUpdate} {ended : Environment}
    (hexecute : handler.execute (callOf p.site handler i) p.site.environment = (.report u, ended))
    (hended : ended.Serves) (happly : i.applyUpdate u p.site.clock = .ok j) :
    Ready generate (p.tend id) ∧ (p.tend id).site.store.record? id = some j ∧
      (p.tend id).site.environment = ended := by
  have hcalls : Calls p.site.store id handler i d := ⟨hi, hd, hc, hhandles⟩
  rw [h.tend_of_unconverged hi hd hc hl]
  cases hrun : handler.call (callOf p.site handler i) p.site.environment with
  | mk run begun =>
    have hfinish : run.finish begun = (.report u, ended) := by
      simpa [Handler.execute, hrun] using hexecute
    obtain ⟨hstore, henvironment⟩ : (p.worker.dispatch p.site id handler fun s => s).2.store
          = (Worker.settle p.site.store p.site.clock id (.report u)).2 ∧
        (p.worker.dispatch p.site id handler fun s => s).2.environment = ended :=
      Worker.dispatch_of_calls p.worker (h.works .fetch) hcalls hrun rfl hfinish
    obtain ⟨hqueue, hregistry⟩ :
        (p.worker.dispatch p.site id handler fun s => s).1.queue = p.worker.queue ∧
        (p.worker.dispatch p.site id handler fun s => s).1.registry = p.worker.registry :=
      Worker.worker_dispatch_of_calls p.worker (h.works .fetch) hcalls hrun rfl hfinish (by simp)
    have hamends := Worker.amends_settle h.keyed p.site.clock id (.report u)
    refine ⟨⟨Worker.attempt_dispatch .., hqueue.trans h.quiet, ?_, fun s hs => ?_, ?_,
      fun call => ?_, ?_⟩, ?_, henvironment⟩
    · exact hregistry ▸ h.starts
    · exact hregistry ▸ h.stops s hs
    · exact hstore ▸ hamends.keyed h.keyed
    · have hle := hamends.faults call
      rw [h.works call] at hle
      exact hstore ▸ Nat.le_zero.1 hle
    · exact henvironment ▸ hended
    · have htaken := Worker.settle_of_applyUpdate (h.works .fetch) (h.works .update) hi
        (h.keyed id i hi) happly
      exact hstore ▸ htaken

end Check

end Ready

/-! ## One order after another -/

/-- What is observed of an integration that is as it is wanted. -/
def observedFor (wanted : State) : State := if wanted = .active then .active else .undeployed

/-- How many replicas it has. -/
def replicasFor (wanted : State) : Nat := if wanted = .active then 1 else 0

/-- An operator can want an integration to run, to be stopped, or to be a draft again. -/
def Orderable (wanted : State) : Prop := wanted = .active ∨ wanted = .inactive ∨ wanted = .draft

lemma Orderable.satisfies (h : Orderable d) : (observedFor d).satisfies d = true := by
  rcases h with rfl | rfl | rfl <;> rfl

/-- The integration is as it is wanted: the record is settled and says so, and the deployment is at
that scale.  Nothing stands in the way of the next order. -/
structure Standing (generate : Project.Generator) (id : IntegrationId) (spec : Spec)
    (wanted : State) (p : Workplace) : Prop extends Ready generate p where
  record : ∃ i v, p.site.store.record? id = some i ∧ i.desired = some wanted ∧
    i.current = some (observedFor wanted) ∧ i.Settled spec v ∧
    p.site.environment.provisioner.RunsAt (resourceName i) v (replicasFor wanted)

/-- A record that can be activated and is not active is activated. -/
lemma Ready.standing_of_canActivate (h : Ready generate p)
    (hgenerate : ∀ i r, ∃ files, generate i r = .ok files)
    (hi : p.site.store.record? id = some i) (hcan : i.CanActivate)
    (hcurrent : i.current ≠ some .active) (hsteps : i.stepsDone = []) :
    Standing generate id i.targetRevision.spec .active (p.tend id) := by
  have hc : i.isConverged = false :=
    ((Worker.calls_activate_iff generate hi hcurrent).2 ⟨hcan.desired, rfl⟩).unconverged
  obtain ⟨files, hfiles⟩ := hgenerate i i.targetRevision
  obtain ⟨u, ended, hattempt, hstate, hdone, hpromoted, hended, hruns⟩ :=
    Activation.attempt_of_serves (c := callOf p.site (.activate generate) i) h.serves hfiles
      (hcan.hasToken p.site.clock) hsteps
  obtain ⟨j, happly, hdesired, hcurrent', -⟩ := hcan.of_promotion hpromoted rfl rfl p.site.clock
  obtain ⟨hready, hj, henvironment⟩ := h.tend_of_report hi hcan.desired hc h.starts
    (by simp [Handler.handles, Handler.activate]) hattempt hended happly
  have hsettled := Integration.settled_of_promotion happly hpromoted rfl hdone hcan.token
  have hname := resourceName_of_sameOwn (Integration.sameOwn_applyUpdate happly)
  refine ⟨hready, j, _, hj, hdesired, hcurrent'.trans (congrArg some hstate), hsettled, ?_⟩
  rw [henvironment, hname]
  exact hruns

/-- A record that is settled and active is stopped. -/
lemma Ready.standing_of_settled (h : Ready generate p) (hi : p.site.store.record? id = some i)
    (hd : i.desired = some d) (hstop : d = .inactive ∨ d = .draft)
    (hcurrent : i.current = some .active) (hsettled : i.Settled spec v) {replicas : Nat}
    (hruns : p.site.environment.provisioner.RunsAt (resourceName i) v replicas) :
    Standing generate id spec d (p.tend id) := by
  have hne : d ≠ .active := by rcases hstop with rfl | rfl <;> decide
  have hhandles : Handler.deactivate.handles d = true := by
    rcases hstop with rfl | rfl <;> decide
  have hc : i.isConverged = false := by
    rcases hstop with rfl | rfl <;> simp [Integration.isConverged, hcurrent, hd, State.satisfies]
  obtain ⟨q, hattempt, hq, hstopped⟩ := Deactivation.attempt_of_serves
    (c := callOf p.site .deactivate i) h.serves.provisioner hsettled.version_select hruns
  obtain ⟨j, happly, hsettled', hcurrent'⟩ := hsettled.of_report
    (u := { version := v, state := .undeployed }) rfl rfl p.site.clock
  obtain ⟨hready, hj, henvironment⟩ := h.tend_of_report hi hd hc (h.stops d hhandles) hhandles
    hattempt ⟨hq, h.serves.sourceControl⟩ happly
  have hown := Integration.sameOwn_applyUpdate happly
  refine ⟨hready, j, v, hj, hown.desired.trans hd, ?_, hsettled', ?_⟩
  · simpa [observedFor, hne] using hcurrent'
  · rw [henvironment, resourceName_of_sameOwn hown, replicasFor, if_neg hne]
    exact hstopped

/-- What one order does: if it asks for something else than what is, the handler for that is called
and brings it about, and otherwise nothing has to be done. -/
theorem Standing.obey {wanted : State} (h : Standing generate id spec wanted p)
    (hgenerate : ∀ i r, ∃ files, generate i r = .ok files) {o : Order} (ho : Orderable o.wanted) :
    Standing generate id spec o.wanted (p.obey id o) := by
  obtain ⟨i, v, hi, -, hcurrent, hsettled, hruns⟩ := h.record
  obtain ⟨hready, hi', henvironment⟩ := h.toReady.want hi o
  have hsettled' := hsettled.want o.wanted
  rw [← henvironment] at hruns
  -- an order that asks for what is there already finds the record converged
  have hkept : observedFor o.wanted = observedFor wanted →
      replicasFor o.wanted = replicasFor wanted →
      Standing generate id spec o.wanted (p.obey id o) := by
    intro hobserved hreplicas
    have hconverged : { i with desired := some o.wanted }.isConverged = true := by
      simp only [Integration.isConverged, hcurrent, ← hobserved]
      exact ho.satisfies
    obtain ⟨hready', hsite⟩ := hready.tend_of_converged hi' rfl hconverged
    refine ⟨hready', _, v, ?_, rfl, hobserved ▸ hcurrent, hsettled', ?_⟩
    · rw [Workplace.obey, hsite]
      exact hi'
    · rw [Workplace.obey, hsite, hreplicas]
      exact hruns
  by_cases hstart : o.wanted = .active <;> by_cases hwas : wanted = .active
  · exact hkept (by rw [hstart, hwas]) (by rw [hstart, hwas])
  · -- a start after a stop: the deployment is made again, from the revision that is active
    have hcan := hsettled'.canActivate (congrArg some hstart)
    have hinactive : i.current ≠ some .active := by simp [hcurrent, observedFor, hwas]
    have hstanding := hready.standing_of_canActivate hgenerate hi' hcan hinactive hsettled.stepsDone
    rw [hsettled'.target.1] at hstanding
    exact hstart ▸ hstanding
  · -- a stop after a start
    have hactive : i.current = some .active := by rw [hcurrent, observedFor, if_pos hwas]
    exact hready.standing_of_settled hi' rfl (ho.resolve_left hstart) hactive hsettled' hruns
  · exact hkept (by simp [observedFor, hstart, hwas]) (by simp [replicasFor, hstart, hwas])

/-- After the first order, which is to run, the integration is as the last order wants it.  The
induction is on the orders before the last one. -/
lemma Ready.standing_obeyAll (h : Ready generate p)
    (hgenerate : ∀ i r, ∃ files, generate i r = .ok files)
    (hi : p.site.store.record? id = some i) (hcan : { i with desired := some .active }.CanActivate)
    (hcurrent : i.current ≠ some .active) (hsteps : i.stepsDone = []) (os : List Order) (o : Order)
    (hfirst : ∀ first, (os ++ [o]).head? = some first → first.wanted = .active)
    (hos : ∀ o' ∈ os ++ [o], Orderable o'.wanted) :
    Standing generate id i.targetRevision.spec o.wanted (p.obeyAll id (os ++ [o])) := by
  induction os using List.reverseRecOn generalizing o with
  | nil =>
    have hstart : o.wanted = .active := hfirst o rfl
    obtain ⟨hready, hi', -⟩ := h.want hi o
    rw [hstart] at hi' ⊢
    have hstanding := hready.standing_of_canActivate hgenerate hi' hcan hcurrent hsteps
    exact hstanding
  | append_singleton os last ih =>
    have hbefore := ih last
      (fun first hhead => hfirst first (by rw [List.head?_append, hhead]; rfl))
      fun o' ho' => hos o' (List.mem_append_left _ ho')
    have hobey := hbefore.obey hgenerate (hos o (List.mem_append_right _ List.mem_cons_self))
    have hall : p.obeyAll id (os ++ [last] ++ [o]) = (p.obeyAll id (os ++ [last])).obey id o := by
      simp only [obeyAll, List.foldl_append, List.foldl_cons, List.foldl_nil]
    rw [hall]
    exact hobey

/-- **Every order is fulfilled.**  At the beginning the record is not active and notes no setup
step, its token never expires, and no active revision of other contents stands in the way of the
revision to act on; the backends serve, and may hold anything.  The integration gets orders to run,
to be stopped and to be a draft, as many as one likes, the first one to run, and each is followed by
one check and the dispatch that the check queues.  Then after each of them the record is converged
to it, the deployed revision is an active one with the contents that the revision to act on had at
the beginning, there is no draft, no setup step is noted, and the deployment is at the scale that is
wanted. -/
theorem lifecycle_converges {generate : Project.Generator}
    (hgenerate : ∀ i r, ∃ files, generate i r = .ok files) {p : Workplace} {handlers : List Handler}
    (hregistry : Registry.ofHandlers handlers = .ok p.worker.registry)
    (hactivate : .activate generate ∈ handlers) (hdeactivate : .deactivate ∈ handlers)
    (idle : p.worker.attempt = none) (quiet : p.worker.queue = []) (hk : p.site.store.Keyed)
    (hworks : ∀ call, p.site.store.faults call = 0) (hserves : p.site.environment.Serves)
    {id : IntegrationId} {i : Integration} (hi : p.site.store.record? id = some i)
    (hcurrent : i.current ≠ some .active) (hsteps : i.stepsDone = [])
    (htoken : ∃ token, i.token = some token ∧ token.expiresAt = none)
    (hpromotable : ∀ r, i.revision? (i.versionFor i.targetRevision) = some r →
      r.currentState = .active → r.spec = i.targetRevision.spec)
    {os done : List Order} {o : Order}
    (hfirst : ∀ first, os.head? = some first → first.wanted = .active)
    (hos : ∀ o ∈ os, Orderable o.wanted) (hdone : done ++ [o] <+: os) :
    let p' := p.obeyAll id (done ++ [o])
    ∃ j v r, p'.site.store.record? id = some j ∧ j.desired = some o.wanted ∧
      j.isConverged = true ∧ j.deployed = some v ∧ j.activeRevision? = some r ∧
      r.version = some v ∧ r.currentState = .active ∧ r.spec = i.targetRevision.spec ∧
      j.draft = none ∧ j.stepsDone = [] ∧
      p'.site.environment.provisioner.RunsAt (resourceName j) v
        (if o.wanted = .active then 1 else 0) := by
  intro p'
  have hready : Ready generate p :=
    { idle, quiet, keyed := hk, works := hworks, serves := hserves
      starts := Registry.lookup_of_mem hregistry hactivate
        (by simp [Handler.handles, Handler.activate])
      stops := fun s hs => Registry.lookup_of_mem hregistry hdeactivate hs }
  have hcan : { i with desired := some .active }.CanActivate :=
    ⟨rfl, htoken, fun r hr hactive =>
      hpromotable r hr (by simpa [Revision.isImmutable] using hactive)⟩
  have hhead : ∀ first, (done ++ [o]).head? = some first → first.wanted = .active := by
    obtain ⟨rest, rfl⟩ := hdone
    exact fun first hhead => hfirst first (by rw [List.head?_append, hhead]; rfl)
  have hstanding : Standing generate id i.targetRevision.spec o.wanted p' :=
    hready.standing_obeyAll hgenerate hi hcan hcurrent hsteps done o hhead
      fun o' ho' => hos o' (hdone.subset ho')
  have ho : Orderable o.wanted := hos o (hdone.subset (by simp))
  obtain ⟨j, v, hj, hdesired, hcurrent', hsettled, hruns⟩ := hstanding.record
  obtain ⟨r, hr, hactive, hspec⟩ := hsettled.active
  refine ⟨j, v, r, hj, hdesired, ?_, hsettled.deployed, ?_, ?_, hactive, hspec, hsettled.draft,
    hsettled.stepsDone, hruns⟩
  · simp only [Integration.isConverged, hcurrent', hdesired]
    exact ho.satisfies
  · simp [Integration.activeRevision?, hsettled.deployed, hr]
  · simpa using List.find?_some hr

/-! ## Up, down, up and down -/

/-- A new worker with both handlers, a record that is to run its first draft, and a provisioner that
runs something else under its name. -/
def newPlace : Workplace where
  worker :=
    { registry := ⟨[(.active, .activate Project.generator), (.inactive, .deactivate),
        (.draft, .deactivate)]⟩ }
  site :=
    { store := { records := Dict.empty.insert "x" Course.draftRecord }
      environment :=
        { provisioner :=
            { autoReady := true
              deployments := Dict.empty.insert "orders-sync"
                { revision := 7, replicas := 2, readyReplicas := 1 } } }
      clock := Course.draftRecord.createdAt }

/-- Orders to be in these states, one after another. -/
def ordersFor (wanted : List State) : List Order :=
  wanted.map fun wanted => { wanted, clock := Course.draftRecord.createdAt }

/-- The draft is running, then stopped, then running again, and in the end it is a draft again; its
deployment is still there, without replicas. -/
theorem draft_up_and_down : ∃ j v r,
    (newPlace.obeyAll "x" (ordersFor [.active, .inactive, .active, .draft])).site.store.record? "x"
        = some j ∧
      j.desired = some .draft ∧ j.isConverged = true ∧ j.activeRevision? = some r ∧
      r.spec = Course.firstDraft.spec ∧
      (newPlace.obeyAll "x" (ordersFor [.active, .inactive, .active, .draft])
        ).site.environment.provisioner.RunsAt (resourceName j) v 0 := by
  have hgenerate : ∀ i r, ∃ files, Project.generator i r = .ok files := fun _ _ => ⟨_, rfl⟩
  have hregistry : Registry.ofHandlers [.activate Project.generator, .deactivate]
      = .ok newPlace.worker.registry := rfl
  have hrecord : newPlace.site.store.record? "x" = some Course.draftRecord := rfl
  have hpromotable : ∀ r, Course.draftRecord.revision?
        (Course.draftRecord.versionFor Course.draftRecord.targetRevision) = some r →
      r.currentState = .active → r.spec = Course.draftRecord.targetRevision.spec := by
    intro r hr
    simp [Integration.revision?, Course.draftRecord] at hr
  have hfirst : ∀ first, (ordersFor [.active, .inactive, .active, .draft]).head? = some first →
      first.wanted = .active := by
    rintro first ⟨⟩
    rfl
  have hos : ∀ o ∈ ordersFor [.active, .inactive, .active, .draft], Orderable o.wanted := by
    simp [ordersFor, Orderable]
  have hdone : ordersFor [.active, .inactive, .active]
        ++ [{ wanted := .draft, clock := Course.draftRecord.createdAt }]
      <+: ordersFor [.active, .inactive, .active, .draft] := List.prefix_rfl
  obtain ⟨j, v, r, hj, hdesired, hconverged, -, hr, -, -, hspec, -, -, hruns⟩ :=
    lifecycle_converges hgenerate hregistry (by simp) (by simp) rfl rfl
      (Store.keyed_singleton Course.draftRecord) (fun _ => rfl) ⟨⟨rfl, fun _ => rfl⟩, rfl⟩ hrecord
      (by decide) rfl ⟨_, rfl, rfl⟩ hpromotable hfirst hos hdone
  exact ⟨j, v, r, hj, hdesired, hconverged, hr, hspec, hruns⟩

end Workplace

end Convergence
