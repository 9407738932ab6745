import Convergence.Proofs.Worker.Commands
/-!
# Whole dispatches

A dispatch begins, time goes by while the handler is at work, and then it ends.  `dispatch` puts the
two parts together, with what happens in between as a parameter.

Either the handler is not called, and the dispatch leaves records and backends alone, or it is
called with the record as stored, and the dispatch leaves what the call leaves and what `settle`
writes.
-/

namespace Convergence.Worker

/-- A dispatch from beginning to end, while the site changes. -/
def dispatch (w : Worker) (site : Site) (id : IntegrationId) (h : Handler)
    (meanwhile : Site → Site) : Worker × Site :=
  let (w, site) := w.begin site id h
  match w.attempt with
  | some a => w.finish (meanwhile site) a
  | none => (w, site)

/-- What happens meanwhile leaves the record alone, and the store in order. -/
structure Undisturbed (id : IntegrationId) (meanwhile : Site → Site) : Prop where
  record : ∀ s, (meanwhile s).store.record? id = s.store.record? id
  keyed : ∀ s, s.store.Keyed → (meanwhile s).store.Keyed
  faults : ∀ s call, (meanwhile s).store.faults call ≤ s.store.faults call

/-- A dispatch calls the handler for the record, to bring it to the state. -/
structure Calls (store : Store) (id : IntegrationId) (h : Handler) (i : Integration) (d : State) :
    Prop where
  record : store.record? id = some i
  desired : i.desired = some d
  unconverged : i.isConverged = false
  handles : h.handles d = true

variable {w : Worker} {site : Site} {id : IntegrationId} {h : Handler} {meanwhile : Site → Site}
  {i : Integration} {d : State}

/-- What the handler is called with. -/
def callOf (site : Site) (h : Handler) (i : Integration) : Call :=
  { integration := i, revision := h.select i, clock := site.clock, moment := site.moment }

/-- The record cannot be read, or the handler is not called for it, or it is. -/
lemma refused_or_calls (site : Site) (id : IntegrationId) (h : Handler) :
    (site.store.faults .fetch ≠ 0 ∨ ∀ i d, ¬ Calls site.store id h i d) ∨
      site.store.faults .fetch = 0 ∧ ∃ i d, Calls site.store id h i d := by
  by_cases hno : site.store.faults .fetch ≠ 0 ∨ ∀ i d, ¬ Calls site.store id h i d
  · exact Or.inl hno
  · exact Or.inr (by simpa using hno)

/-- The target of a dispatch is the record to call the handler for. -/
lemma target?_eq_some_iff {store : Store} :
    target? h (store.record? id) = some (i, d) ↔ Calls store id h i d := by
  constructor
  · intro ht
    simp only [target?] at ht
    split at ht
    · cases ht
    next i' hi =>
      split at ht
      · cases ht
      next d' hd =>
        split at ht
        · cases ht
        next hs =>
          cases ht
          have hs : i.isConverged = false ∧ h.handles d = true := by simpa using hs
          exact ⟨hi, hd, hs.1, hs.2⟩
  · intro hcalls
    simp [target?, hcalls.record, hcalls.desired, hcalls.unconverged, hcalls.handles]

/-- A record that cannot be read counts as a failure. -/
lemma dispatch_of_unread (id : IntegrationId) (h : Handler) (meanwhile : Site → Site)
    (idle : w.attempt = none) (hf : site.store.faults .fetch ≠ 0) :
    w.dispatch site id h meanwhile
      = (w.countFailure id).arm { site with store := (site.store.fetch id).2 } id := by
  rw [dispatch, begin, Store.fetch_of_faults_ne_zero hf]
  simp [arm, countFailure, idle]

/-- A dispatch that has nothing to call the handler for only drops markers. -/
lemma dispatch_of_uncalled (meanwhile : Site → Site) (idle : w.attempt = none)
    (hf : site.store.faults .fetch = 0) (hno : ∀ i d, ¬ Calls site.store id h i d) :
    w.dispatch site id h meanwhile = (w.dropStale (site.store.record? id), site) := by
  have htarget : target? h (site.store.record? id) = none :=
    Option.eq_none_iff_forall_ne_some.2 fun x hx => hno x.1 x.2 (target?_eq_some_iff.1 hx)
  have hattempt : (w.dropStale (site.store.record? id)).attempt = none := by
    simp only [dropStale]
    split
    · exact idle
    · split <;> exact idle
  simp [dispatch, begin, Store.fetch_of_faults_eq_zero hf, htarget, hattempt]

/-- A dispatch that cannot read the record, or has nothing to call the handler for, changes no
record and no backend. -/
lemma dispatch_refused (meanwhile : Site → Site) (idle : w.attempt = none)
    (hno : site.store.faults .fetch ≠ 0 ∨ ∀ i d, ¬ Calls site.store id h i d) :
    (w.dispatch site id h meanwhile).2.store.records = site.store.records ∧
      (∀ call, (w.dispatch site id h meanwhile).2.store.faults call ≤ site.store.faults call) ∧
      (w.dispatch site id h meanwhile).2.environment = site.environment := by
  by_cases hf : site.store.faults .fetch = 0
  · rw [dispatch_of_uncalled meanwhile idle hf (hno.resolve_left (not_not_intro hf))]
    exact ⟨rfl, fun _ => Nat.le_refl _, rfl⟩
  · rw [dispatch_of_unread id h meanwhile idle hf]
    exact ⟨site.store.records_fetch id, site.store.faults_fetch_le id, rfl⟩

/-- No call is under way after a dispatch. -/
lemma attempt_dispatch (w : Worker) (site : Site) (id : IntegrationId) (h : Handler)
    (meanwhile : Site → Site) : (w.dispatch site id h meanwhile).1.attempt = none := by
  simp only [dispatch]
  split
  · next a ha =>
    rw [finish_eq _ _ a rfl]
    split
    · rfl
    · rw [conclude_eq]
      obtain ⟨failures, htally⟩ := tally_eq { (w.begin site id h).1 with attempt := none } a.id
        (settle (meanwhile (w.begin site id h).2).store (meanwhile (w.begin site id h).2).clock a.id
          (a.finish (meanwhile (w.begin site id h).2).environment).1).1
      simp [htally, arm]
  · next hnone => exact hnone

/-- If there is something to call the handler for, the dispatch comes to the call. -/
lemma Begun.eq_of_calls {x : Worker × Site} (hb : Begun w site id h x)
    (hf : site.store.faults .fetch = 0) (hcalls : Calls site.store id h i d) {run : Run}
    {begun : Environment} (hrun : h.call (callOf site h i) site.environment = (run, begun)) :
    x =
      ({ w with
          markers := (w.markers.eraseId id).insert { desired := d, id := i.id }
          attempt := some
            { id, finish := run.finish, serial := site.serials, due := site.moment + run.wait } },
        { site with environment := begun, serials := site.serials + 1 }) := by
  cases hb with
  | unread hfault => exact absurd hf hfault
  | gone hi => simp [hcalls.record] at hi
  | unwanted hi hd =>
    obtain rfl : i = _ := by simpa [hcalls.record] using hi
    simp [hcalls.desired] at hd
  | @stale i' d' hi hd hstale =>
    obtain rfl : i = i' := by simpa [hcalls.record] using hi
    obtain rfl : d = d' := by simpa [hcalls.desired] using hd
    simp [hcalls.unconverged, hcalls.handles] at hstale
  | @called i' d' hi hd hc hh call hcall run' begun' hrun' =>
    obtain rfl : i = i' := by simpa [hcalls.record] using hi
    obtain rfl : d = d' := by simpa [hcalls.desired] using hd
    obtain ⟨rfl, rfl⟩ : run = run' ∧ begun = begun' := by
      rw [hcall] at hrun'
      simpa [callOf] using hrun.symm.trans hrun'
    rfl

/-- A dispatch that calls the handler begins with the call. -/
lemma begin_of_calls (w : Worker) (hf : site.store.faults .fetch = 0)
    (hcalls : Calls site.store id h i d) {run : Run} {begun : Environment}
    (hrun : h.call (callOf site h i) site.environment = (run, begun)) :
    w.begin site id h =
      ({ w with
          markers := (w.markers.eraseId id).insert { desired := d, id := i.id }
          attempt := some
            { id, finish := run.finish, serial := site.serials, due := site.moment + run.wait } },
        { site with environment := begun, serials := site.serials + 1 }) :=
  (begin_begun w site id h).eq_of_calls hf hcalls hrun

/-- The worker at the end of a call: the marker of the call has taken the place of all others of the
integration. -/
def marked (w : Worker) (id : IntegrationId) (m : Marker) : Worker :=
  { w with markers := (w.markers.eraseId id).insert m, attempt := none }

/-- A dispatch that calls the handler concludes with how the call ended, unless the handler breaks
down. -/
lemma dispatch_of_called (w : Worker) (hf : site.store.faults .fetch = 0)
    (hcalls : Calls site.store id h i d) {run : Run} {begun : Environment}
    (hrun : h.call (callOf site h i) site.environment = (run, begun)) {s : Site}
    (hs : meanwhile { site with environment := begun, serials := site.serials + 1 } = s)
    {o : Outcome} {ended : Environment} (ho : run.finish s.environment = (o, ended)) :
    w.dispatch site id h meanwhile =
      if o = .crashed then ((w.marked id ⟨d, i.id⟩).halt, { s with environment := ended })
      else (w.marked id ⟨d, i.id⟩).conclude { s with environment := ended } id o := by
  rw [dispatch, begin_of_calls w hf hcalls hrun]
  dsimp only
  rw [hs, finish_eq _ _ _ ho]
  rfl

/-- A dispatch that calls the handler leaves the backends as the call does, and the store as it is
settled. -/
theorem dispatch_of_calls (w : Worker) (hf : site.store.faults .fetch = 0)
    (hcalls : Calls site.store id h i d) {run : Run} {begun : Environment}
    (hrun : h.call (callOf site h i) site.environment = (run, begun)) {s : Site}
    (hs : meanwhile { site with environment := begun, serials := site.serials + 1 } = s)
    {o : Outcome} {ended : Environment} (ho : run.finish s.environment = (o, ended)) :
    (w.dispatch site id h meanwhile).2.store = (settle s.store s.clock id o).2 ∧
      (w.dispatch site id h meanwhile).2.environment = ended := by
  rw [dispatch_of_called w hf hcalls hrun hs ho]
  split
  · next hcrash => simp [settle, verdict, hcrash]
  · simp [conclude_eq, arm]

/-- A dispatch that calls the handler leaves the queue and the registry of the worker alone, unless
the handler breaks down. -/
lemma worker_dispatch_of_calls (w : Worker) (hf : site.store.faults .fetch = 0)
    (hcalls : Calls site.store id h i d) {run : Run} {begun : Environment}
    (hrun : h.call (callOf site h i) site.environment = (run, begun)) {s : Site}
    (hs : meanwhile { site with environment := begun, serials := site.serials + 1 } = s)
    {o : Outcome} {ended : Environment} (ho : run.finish s.environment = (o, ended))
    (hcrash : o ≠ .crashed) :
    (w.dispatch site id h meanwhile).1.queue = w.queue ∧
      (w.dispatch site id h meanwhile).1.registry = w.registry := by
  rw [dispatch_of_called w hf hcalls hrun hs ho, if_neg hcrash, conclude_eq]
  obtain ⟨failures, htally⟩ := tally_eq (w.marked id ⟨d, i.id⟩) id
    (settle s.store s.clock id o).1
  rw [htally]
  exact ⟨rfl, rfl⟩

/-- What a dispatch can come to, for the store and the backends. -/
inductive Dispatched (site : Site) (id : IntegrationId) (h : Handler) (meanwhile : Site → Site)
    (site' : Site) : Prop where
  /-- The handler is not called. -/
  | refused (hno : site.store.faults .fetch ≠ 0 ∨ ∀ i d, ¬ Calls site.store id h i d)
      (hrecords : site'.store.records = site.store.records)
      (hfaults : ∀ call, site'.store.faults call ≤ site.store.faults call)
      (henvironment : site'.environment = site.environment)
  | called {i : Integration} {d : State} {run : Run} {begun ended : Environment} {s : Site}
      {o : Outcome} (hf : site.store.faults .fetch = 0) (hcalls : Calls site.store id h i d)
      (hrun : h.call (callOf site h i) site.environment = (run, begun))
      (hs : meanwhile { site with environment := begun, serials := site.serials + 1 } = s)
      (ho : run.finish s.environment = (o, ended))
      (hstore : site'.store = (settle s.store s.clock id o).2)
      (henvironment : site'.environment = ended)

/-- A dispatch comes to one of the cases. -/
theorem dispatched (site : Site) (id : IntegrationId) (h : Handler) (meanwhile : Site → Site)
    (idle : w.attempt = none) :
    Dispatched site id h meanwhile (w.dispatch site id h meanwhile).2 := by
  rcases refused_or_calls site id h with hno | ⟨hf, i, d, hcalls⟩
  · obtain ⟨hrecords, hfaults, henvironment⟩ := dispatch_refused meanwhile idle hno
    exact .refused hno hrecords hfaults henvironment
  · obtain ⟨hstore, henvironment⟩ := dispatch_of_calls w hf hcalls rfl rfl rfl
    exact .called hf hcalls rfl rfl rfl hstore henvironment

end Convergence.Worker
