import Convergence.Proofs.Registry
import Convergence.Proofs.Worker.Dispatch
import Convergence.Proofs.Worker.Timers
/-!
# Which handler is called, and with what

A check chooses the handler and puts it into the queue; by the time of the dispatch the record may
be another one, and another state may be wanted.  The dispatch asks only whether the handler it was
given is meant for what is wanted now.  In a registry made by registration that is enough: a handler
that is meant for a state and has some state is the one that has this state.

`Chosen` is what holds throughout a run, and `RightCall` says that a handler is called as it should
be.  The main result is `rightCall_of_step`: whatever happens between a check and its dispatch, only
such calls are made, all of them are, and nothing else touches the backends but the end of a call
and what happens outside.
-/

namespace Convergence.Workplace

variable {registry : Registry} {p p' : Workplace} {e : Event} {id : IntegrationId} {h : Handler}
  {i : Integration} {d : State}

/-! ## What waits in the queue -/

/-- Nobody but a check queues a dispatch, and a check takes its handler from the registry. -/
lemma queued_of_step (hs : p.step e = some p') (hmem : .dispatch id h ∈ p'.worker.queue) :
    .dispatch id h ∈ p.worker.queue ∨ ∃ s, p.worker.registry.lookup? s = some h := by
  have hadded : ∀ {queue : List Command} {c : Command}, .dispatch id h ∈ queue ++ [c] →
      (.dispatch id h ∈ queue ∨ .dispatch id h = c) := by
    intro queue c hc
    simpa using hc
  cases stepped_of_step hs with
  | @concluded a o environment ha hf r store hr =>
    obtain ⟨failures, htally⟩ := Worker.tally_eq { p.worker with attempt := none } a.id r
    exact Or.inl (by simpa [of, Worker.arm, htally] using hmem)
  | @checked id' trigger rest w idle hq hc =>
    obtain ⟨pending, hnote⟩ := Worker.noteFired_eq { p.worker with queue := rest } id' trigger
    rw [hnote] at hc
    have hrest : ∀ c ∈ rest, c ∈ p.worker.queue := fun c hc => hq ▸ List.mem_cons_of_mem _ hc
    cases hc with
    | @dispatched i d h' hi hd hunconverged hl hm =>
      rcases hadded hmem with hold | hnew
      · exact Or.inl (hrest _ hold)
      · cases hnew
        exact Or.inr ⟨d, hl⟩
    | _ => exact Or.inl (hrest _ hmem)
  | @begun id' handler rest x idle hq hb =>
    have hqueue : x.1.queue = rest := hb.queue
    exact Or.inl (hq ▸ List.mem_cons_of_mem _ (hqueue ▸ hmem))
  | answered idle hq => exact Or.inl (hq ▸ List.mem_cons_of_mem _ hmem)
  | fired ht =>
    rcases hadded hmem with hold | hnew
    · exact Or.inl hold
    · cases hnew
  | @told e c hc =>
    -- nobody outside can ask for a dispatch
    rcases hadded hmem with hold | hnew
    · exact Or.inl hold
    · subst hnew
      cases e <;> cases hc
  | written wr =>
    rw [worker_write] at hmem
    split at hmem
    · rcases hadded hmem with hold | hnew
      · exact Or.inl hold
      · cases hnew
    · exact Or.inl hmem
  | failing call times => exact Or.inl hmem
  | drifted environment clock moment => exact Or.inl hmem

/-- Records are stored under their own ids, and the handler of every dispatch that waits has some
state in the registry. -/
structure Chosen (registry : Registry) (p : Workplace) : Prop where
  registered : p.worker.registry = registry
  keyed : p.site.store.Keyed
  chosen : ∀ id h, .dispatch id h ∈ p.worker.queue → ∃ s, registry.lookup? s = some h

namespace Chosen

lemma step (hp : Chosen registry p) (hs : p.step e = some p') : Chosen registry p' := by
  refine ⟨(setup_of_step hs).registry.trans hp.registered, keyed_of_step hp.keyed hs,
    fun id h hmem => ?_⟩
  rcases queued_of_step hs hmem with hold | hnew
  · exact hp.chosen id h hold
  · exact hp.registered ▸ hnew

lemma run (hp : Chosen registry p) {es : List Event} (hrun : p.run es = some p') :
    Chosen registry p' :=
  run_invariant hp (fun _ _ _ _ hq hs => hq.step hs) hrun

/-- A new worker has queued checks only. -/
lemma start (config : ControllerConfig) (registry : Registry) {site : Site}
    (hk : site.store.Keyed) : Chosen registry (start config registry site) := by
  obtain ⟨records, hscan, -⟩ := Worker.scan_eq { config, registry } site
  refine ⟨?_, keyed_start config registry hk, fun id h hmem => ?_⟩
  · simp [Workplace.start, of, hscan]
  · simp [Workplace.start, of, hscan] at hmem

end Chosen

/-! ## Calls -/

/-- With the step a handler is called for a record, to bring it to a state.  It is the one that the
registry has for the state; it gets the record as it is stored and the revision that it selects of
it; and the record is not as wanted. -/
structure RightCall (registry : Registry) (p p' : Workplace) (id : IntegrationId) (h : Handler)
    (i : Integration) (d : State) : Prop where
  next : ∃ rest, p.worker.queue = .dispatch id h :: rest
  record : p.site.store.record? id = some i
  own : i.id = id
  desired : i.desired = some d
  unconverged : i.isConverged = false
  registered : registry.lookup? d = some h
  called : ∃ run, h.call
      { integration := i, revision := h.select i, clock := p.site.clock, moment := p.site.moment }
      p.site.environment = (run, p'.site.environment) ∧
    ∃ a, p'.worker.attempt = some a ∧ a.id = id ∧ a.finish = run.finish

/-- If a dispatch comes to a call, that is a right one. -/
lemma Chosen.rightCall_of_begun (hp : Chosen registry p) (hr : registry.Exclusive)
    (idle : p.worker.attempt = none) {rest : List Command}
    (hq : p.worker.queue = .dispatch id h :: rest) {x : Worker × Site}
    (hb : Worker.Begun { p.worker with queue := rest } p.site id h x)
    (busy : x.1.attempt ≠ none) : ∃ i d, RightCall registry p (of x) id h i d := by
  cases hb with
  | @called i d hi hd hunconverged hhandles call hcall run environment hrun =>
    obtain ⟨s, hchosen⟩ := hp.chosen id h (hq ▸ List.mem_cons_self)
    -- the handler was chosen for some state, and is meant for the one that is wanted now
    refine ⟨i, d, ⟨rest, hq⟩, hi, hp.keyed id i hi, hd, hunconverged,
      hr.lookup_of_handles hchosen hhandles, run, ?_, _, rfl, rfl, rfl⟩
    rw [← hcall]
    exact hrun
  | _ => exact absurd idle busy

/-- A dispatch begins with a right call, or leaves the backends alone. -/
lemma Chosen.begun_cases (hp : Chosen registry p) (hr : registry.Exclusive)
    (idle : p.worker.attempt = none) {rest : List Command}
    (hq : p.worker.queue = .dispatch id h :: rest) {x : Worker × Site}
    (hb : Worker.Begun { p.worker with queue := rest } p.site id h x) :
    (∃ i d, RightCall registry p (of x) id h i d) ∨
      x.1.attempt = p.worker.attempt ∧ x.2.environment = p.site.environment := by
  by_cases busy : x.1.attempt = none
  · refine Or.inr ⟨busy.trans idle.symm, ?_⟩
    cases hb with
    | called hi hd hc hh hcall hrun => cases busy
    | _ => rfl
  · exact Or.inl (hp.rightCall_of_begun hr idle hq hb busy)

/-- What a step does to the backends: a handler is called, or a call ends, or they change by
themselves, or they stay as they are; and only in the first case a call begins. -/
lemma Chosen.step_cases (hp : Chosen registry p) (hr : registry.Exclusive)
    (hs : p.step e = some p') : (∃ id h i d, RightCall registry p p' id h i d) ∨
      (∃ a, p.worker.attempt = some a ∧ p'.worker.attempt = none ∧
        p'.site.environment = (a.finish p.site.environment).2) ∨
      p'.worker.attempt = p.worker.attempt ∧
        (p'.site.environment = p.site.environment ∨
          ∃ environment clock moment, e = .drift environment clock moment) := by
  cases stepped_of_step hs with
  | @concluded a o environment ha hf r store hr =>
    obtain ⟨failures, htally⟩ := Worker.tally_eq { p.worker with attempt := none } a.id r
    exact Or.inr (Or.inl ⟨a, ha, by simp [of, Worker.arm, htally], by simp [of, Worker.arm, hf]⟩)
  | @checked id trigger rest w idle hq hc =>
    obtain ⟨pending, hnote⟩ := Worker.noteFired_eq { p.worker with queue := rest } id trigger
    exact Or.inr (Or.inr ⟨hc.attempt.trans (by rw [hnote]), Or.inl rfl⟩)
  | @begun id handler rest x idle hq hb =>
    rcases hp.begun_cases hr idle hq hb with ⟨i, d, hright⟩ | ⟨hattempt, henvironment⟩
    · exact Or.inl ⟨id, handler, i, d, hright⟩
    · exact Or.inr (Or.inr ⟨hattempt, Or.inl henvironment⟩)
  | answered idle hq => exact Or.inr (Or.inr ⟨rfl, Or.inl rfl⟩)
  | fired ht => exact Or.inr (Or.inr ⟨rfl, Or.inl rfl⟩)
  | told hc => exact Or.inr (Or.inr ⟨rfl, Or.inl rfl⟩)
  | written wr =>
    refine Or.inr (Or.inr ⟨?_, Or.inl (environment_write p wr)⟩)
    rw [worker_write]
    split
    · rfl
    · rfl
  | failing call times => exact Or.inr (Or.inr ⟨rfl, Or.inl rfl⟩)
  | drifted environment clock moment =>
    exact Or.inr (Or.inr ⟨rfl, Or.inr ⟨environment, clock, moment, rfl⟩⟩)

/-- Wherever a run has led, a call that begins with the next step is a right one.  A step in which
none begins leaves the backends alone, unless it ends a call or they change by themselves.  And a
dispatch that is next comes to a call just if the record is there and not as wanted, and the
registry has that handler for what is wanted. -/
theorem rightCall_of_step {handlers : List Handler}
    (hr : Registry.ofHandlers handlers = .ok registry) {config : ControllerConfig} {site : Site}
    (hk : site.store.Keyed) {es : List Event}
    (hrun : (start config registry site).run es = some p) (hs : p.step e = some p') :
    (p.worker.attempt = none → p'.worker.attempt ≠ none →
        ∃ id h i d, RightCall registry p p' id h i d) ∧
      (p'.site.environment ≠ p.site.environment →
        (∃ id h i d, RightCall registry p p' id h i d) ∨
        (∃ a, p.worker.attempt = some a ∧
          p'.site.environment = (a.finish p.site.environment).2) ∨
        ∃ environment clock moment, e = .drift environment clock moment) ∧
      ∀ id h rest, e = .work → p.worker.attempt = none →
        p.worker.queue = .dispatch id h :: rest → p.site.store.faults .fetch = 0 →
        ((∃ i d, RightCall registry p p' id h i d) ↔ ∃ i d, p.site.store.record? id = some i ∧
          i.desired = some d ∧ i.isConverged = false ∧ registry.lookup? d = some h) := by
  have hp : Chosen registry p := (Chosen.start config registry hk).run hrun
  have hexclusive := Registry.exclusive_ofHandlers hr
  have hsound := Registry.sound_ofHandlers hr
  refine ⟨fun idle busy => ?_, fun hchanged => ?_, ?_⟩
  · rcases hp.step_cases hexclusive hs with hright | ⟨a, ha, -, -⟩ | ⟨hattempt, -⟩
    · exact hright
    · cases idle.symm.trans ha
    · exact absurd (hattempt.trans idle) busy
  · rcases hp.step_cases hexclusive hs with hright | ⟨a, ha, -, hend⟩ | ⟨-, hsame | hdrift⟩
    · exact Or.inl hright
    · exact Or.inr (Or.inl ⟨a, ha, hend⟩)
    · exact absurd hsame hchanged
    · exact Or.inr (Or.inr hdrift)
  · rintro id h rest rfl idle hq readable
    constructor
    · rintro ⟨i, d, hright⟩
      exact ⟨i, d, hright.record, hright.desired, hright.unconverged, hright.registered⟩
    · rintro ⟨i, d, hi, hd, hunconverged, hl⟩
      have hcalls : Worker.Calls p.site.store id h i d :=
        ⟨hi, hd, hunconverged, hsound.handles hl⟩
      have hb := begun_of_step hs idle hq
      have hattempt : p'.worker.attempt = some _ :=
        congrArg (·.1.attempt) (hb.eq_of_calls readable hcalls rfl)
      refine hp.rightCall_of_begun hexclusive idle hq hb fun hnone => ?_
      cases hnone.symm.trans hattempt

/-! ## A change of mind between check and dispatch -/

/-- A handler of two states that has nothing to report. -/
def pausingHandler : Handler := .scripted 0 "pause" [.inactive, .draft] []

/-- The registry of that handler. -/
def pausingRegistry : Registry := ⟨[(.inactive, pausingHandler), (.draft, pausingHandler)]⟩

lemma ofHandlers_pausing : Registry.ofHandlers [pausingHandler] = .ok pausingRegistry := rfl

/-- A record that is to be in this state, and is active. -/
def pausedRecord (desired : State) : Integration :=
  { draftedRecord with desired := some desired, current := some .active }

/-- A site whose store holds the record that is to be inactive, and nothing else. -/
def pausedSite : Site where
  store := { records := Dict.empty.insert "x" (pausedRecord .inactive) }
  clock := draftedRecord.createdAt

/-- While the dispatch waits, it becomes the other state that is wanted. -/
def pausing : List Event := [.work, .write (.update (pausedRecord .draft))]

/-- The handler is called for the state that is wanted now. -/
theorem rightCall_in_pausing : ∃ p p' h,
    (start {} pausingRegistry pausedSite).run pausing = some p ∧ p.step .work = some p' ∧
      RightCall pausingRegistry p p' "x" h (pausedRecord .draft) .draft := by
  have hrun : ((start {} pausingRegistry pausedSite).run pausing).any (fun p =>
      p.worker.attempt.isNone && p.site.store.record? "x" == some (pausedRecord .draft) &&
        (p.worker.queue.head?.bind Command.dispatch?).any (·.1 == "x") &&
        (p.step .work).any fun p' => p'.worker.attempt.isSome) = true := by decide +kernel
  obtain ⟨p, hp, hnext⟩ := (Option.any_eq_true _ _).1 hrun
  simp only [Bool.and_eq_true, beq_iff_eq, Option.isNone_iff_eq_none] at hnext
  obtain ⟨⟨⟨idle, hrecord⟩, hqueue⟩, hstep⟩ := hnext
  obtain ⟨p', hs, busy⟩ := (Option.any_eq_true _ _).1 hstep
  have hk : pausedSite.store.Keyed := Store.keyed_singleton (pausedRecord .inactive)
  obtain ⟨hright, -, -⟩ := rightCall_of_step ofHandlers_pausing hk hp hs
  obtain ⟨id, h, i, d, hcall⟩ := hright idle (Option.isSome_iff_ne_none.1 busy)
  obtain ⟨rest, hq⟩ := hcall.next
  obtain rfl : id = "x" := by simpa [hq, Command.dispatch?] using hqueue
  obtain rfl : pausedRecord .draft = i := Option.some.inj (hrecord.symm.trans hcall.record)
  obtain rfl : .draft = d := Option.some.inj hcall.desired
  exact ⟨p, p', h, hp, hs, hcall⟩

end Convergence.Workplace
