import Convergence.Proofs.Markers
import Convergence.Proofs.Registry
import Convergence.Proofs.Worker.Expected
/-!
# Wake-ups

An integration waits if its record is not as wanted and there is a handler for what is wanted.
While it waits, a timer or a command should bring the worker back to it: its wake-up.  One that
waits without a wake-up is abandoned.

As long as the store can be read, only one thing takes the last wake-up of an integration that
waits: the check of a notification that is held back by a marker.  A marker alone is no wake-up; it
counts on a timer or on a command that gets past it.  If the last of these comes to nothing,
because the record is gone, no state is wanted, or there is no handler for it, then the marker is
stranded, and a later notification trusts it.

The main results are

* `Steady.step`: what holds at all times while the store can be read;
* `wakes_of_step`, `guarded_of_step`: what one step does to wake-ups and to markers;
* `abandoned_iff`: in a run an integration comes to be abandoned exactly if a notification of it is
  swallowed, and only after its marker was stranded;
* `not_forall_wakes`: this happens.
-/

namespace Convergence

/-- The command gets past a marker. -/
def Command.PassesMarkers : Command → Prop
  | .check _ trigger => trigger ≠ .notification
  | _ => True

/-- The event makes no read of a record fail. -/
def Event.SparesReads (e : Event) : Prop := ∀ times, e ≠ .failNext .fetch times

namespace Worker

/-- The worker will come back to the integration. -/
def Wakes (w : Worker) (id : IntegrationId) : Prop := w.Expects (fun _ => True) id

/-- The worker will come back to the integration, even if it has a marker. -/
def Guarded (w : Worker) (id : IntegrationId) : Prop := w.Expects Command.PassesMarkers id

/-! ## Dispatches that are followed by a check -/

/-- A dispatch of the integration that is not meant for the state is followed by a check. -/
def Followed (id : IntegrationId) (d : State) (queue : List Command) : Prop :=
  ∀ h rest, .dispatch id h :: rest <:+ queue →
    h.handles d = true ∨ ∃ trigger, .check id trigger ∈ rest

variable {id : IntegrationId} {d : State} {queue : List Command}

lemma Followed.tail {c : Command} {rest : List Command} (h : Followed id d (c :: rest)) :
    Followed id d rest :=
  fun handler later hsuffix => h handler later (hsuffix.trans (List.suffix_cons c rest))

/-- A suffix of a longer queue that begins with a dispatch. -/
private lemma suffix_concat_cases {c c' : Command} {rest : List Command}
    (h : c' :: rest <:+ queue ++ [c]) :
    (c' = c ∧ rest = []) ∨ ∃ rest', rest = rest' ++ [c] ∧ c' :: rest' <:+ queue := by
  rcases List.suffix_concat_iff.1 h with hnil | ⟨l, hl, hsuffix⟩
  · cases hnil
  · cases l with
    | nil =>
      obtain ⟨rfl, rfl⟩ : c' = c ∧ rest = [] := by simpa using hl
      exact Or.inl ⟨rfl, rfl⟩
    | cons c'' rest' =>
      obtain ⟨rfl, rfl⟩ : c' = c'' ∧ rest = rest' ++ [c] := by simpa using hl
      exact Or.inr ⟨rest', rfl, hsuffix⟩

lemma Followed.concat {c : Command} (h : Followed id d queue)
    (hc : ∀ handler, c = .dispatch id handler → handler.handles d = true) :
    Followed id d (queue ++ [c]) := by
  intro handler rest hsuffix
  rcases suffix_concat_cases hsuffix with ⟨heq, -⟩ | ⟨rest', rfl, hold⟩
  · exact Or.inl (hc handler heq.symm)
  · rcases h handler rest' hold with hd | ⟨trigger, hmem⟩
    · exact Or.inl hd
    · exact Or.inr ⟨trigger, List.mem_append_left _ hmem⟩

/-- A check at the end follows every dispatch. -/
lemma followed_concat_check (id : IntegrationId) (d : State) (trigger : Trigger)
    (queue : List Command) : Followed id d (queue ++ [.check id trigger]) := by
  intro handler rest hsuffix
  rcases suffix_concat_cases hsuffix with ⟨heq, -⟩ | ⟨rest', rfl, -⟩
  · cases heq
  · exact Or.inr ⟨trigger, by simp⟩

end Worker

namespace Workplace

open Worker (Followed followed_concat_check Expects)

variable {registry : Registry} {p p' : Workplace} {e : Event} {id : IntegrationId}

/-! ## What holds at all times -/

/-- What holds at all times while the store can be read. -/
structure Steady (registry : Registry) (p : Workplace) : Prop where
  registry : p.worker.registry = registry
  keyed : p.site.store.Keyed
  readable : p.site.store.faults .fetch = 0
  timers : p.TimersSound
  followed : ∀ id i d, p.site.store.record? id = some i → i.desired = some d →
    Followed id d p.worker.queue

lemma steady_start (config : ControllerConfig) (registry : Registry) {site : Site}
    (hk : site.store.Keyed) (hf : site.store.faults .fetch = 0)
    (hall : site.store.faults .fetchAll = 0) : Steady registry (start config registry site) := by
  obtain ⟨records, hscan, -⟩ := Worker.scan_eq { config, registry } site
  rw [Store.fetchAll_of_faults_eq_zero hall] at hscan
  refine ⟨by simp [start, of, hscan], keyed_start config registry hk,
    by simpa [start, of, hscan] using hf, timersSound_start config registry site, ?_⟩
  -- the scan queues no dispatch
  intro id i d _ _ handler rest hsuffix
  have hmem := hsuffix.subset List.mem_cons_self
  simp [start, of, hscan] at hmem

/-- Every dispatch that is not meant for what is wanted is followed by a check: a check queues one
that is, and whoever changes what is wanted has a check queued. -/
lemma Steady.followed_step (h : Steady registry p) (hr : registry.Sound) (hs : p.step e = some p')
    {i : Integration} {d : State} (hi : p'.site.store.record? id = some i)
    (hd : i.desired = some d) : Followed id d p'.worker.queue := by
  cases stepped_of_step hs with
  | @concluded a o environment ha hf r store hrun =>
    obtain ⟨j, hj, hji⟩ := (Worker.amends_of_settle h.keyed hrun).desired hi
    obtain ⟨failures, htally⟩ := Worker.tally_eq { p.worker with attempt := none } a.id r
    simpa [of, Worker.arm, htally] using h.followed id j d hj (hji.trans hd)
  | @checked id' trigger rest w idle hq hc =>
    replace hi : p.site.store.record? id = some i := by simpa using hi
    have hrest : Followed id d rest := (hq ▸ h.followed id i d hi hd).tail
    obtain ⟨pending, hnote⟩ := Worker.noteFired_eq { p.worker with queue := rest } id' trigger
    rw [hnote] at hc
    cases hc with
    | @dispatched i' d' handler hi' hd' _ hl _ =>
      -- the handler that is called is the one of the state that the check read
      refine hrest.concat fun handler' heq => ?_
      obtain ⟨rfl, rfl⟩ : i'.id = id ∧ handler = handler' := by simpa using heq
      obtain rfl : i'.id = id' := h.keyed id' i' hi'
      obtain rfl : i = i' := by simpa [hi] using hi'
      obtain rfl : d = d' := by simpa [hd] using hd'
      rw [show p.worker.registry = registry from h.registry] at hl
      exact hr.handles hl
    | _ => exact hrest
  | @begun id' handler rest x idle hq hb =>
    have hold : ∀ j, p.site.store.record? id = some j → j.desired = some d → Followed id d rest :=
      fun j hj hjd => (hq ▸ h.followed id j d hj hjd).tail
    cases hb with
    | unread hfault => exact absurd h.readable hfault
    | gone _ => exact hold i hi hd
    | unwanted _ _ => exact hold i hi hd
    | stale _ _ _ => exact hold i hi hd
    | called _ _ _ _ _ _ => exact hold i hi hd
  | answered idle hq => exact (hq ▸ h.followed id i d hi hd).tail
  | fired ht => exact (h.followed id i d hi hd).concat fun _ heq => by cases heq
  | told hc =>
    -- nobody else queues a dispatch
    refine (h.followed id i d hi hd).concat fun handler heq => ?_
    rw [heq] at hc
    cases e <;> cases hc
  | written wr =>
    rw [store_write] at hi
    rw [worker_write]
    by_cases hid : id = wr.id
    · subst hid
      rcases wr.run_cases p.site.store with ⟨hsame, hrecords⟩ | ⟨hchanged, -⟩
      · replace hi : p.site.store.record? wr.id = some i := by
          simpa [Store.record?, hrecords] using hi
        simpa [hsame] using h.followed wr.id i d hi hd
      · simpa [hchanged, Worker.enqueue]
          using followed_concat_check wr.id d .notification p.worker.queue
    · rw [wr.record?_run_of_ne p.site.store hid] at hi
      have hold := h.followed id i d hi hd
      split
      · exact hold.concat fun _ heq => by cases heq
      · exact hold
  | failing call times => exact h.followed id i d hi hd
  | drifted environment clock moment => exact h.followed id i d hi hd

/-- A step keeps what holds at all times. -/
theorem Steady.step (h : Steady registry p) (hr : registry.Sound) (he : e.SparesReads)
    (hs : p.step e = some p') : Steady registry p' where
  registry := (setup_of_step hs).registry.trans h.registry
  keyed := keyed_of_step h.keyed hs
  readable := faults_of_step h.keyed h.readable he hs
  timers := h.timers.step hs
  followed := fun _ _ _ hi hd => h.followed_step hr hs hi hd

/-! ## Wake-ups -/

/-- The record of the integration is not as wanted, and there is a handler for what is wanted. -/
def Waits (p : Workplace) (id : IntegrationId) : Prop :=
  ∃ i d, p.site.store.record? id = some i ∧ i.desired = some d ∧ i.isConverged = false ∧
    (p.worker.registry.lookup? d).isSome = true

/-- The integration waits, and the worker will not come back to it. -/
def Abandons (p : Workplace) (id : IntegrationId) : Prop := p.Waits id ∧ ¬ p.worker.Wakes id

/-- A marker keeps notifications about the integration from starting an attempt. -/
def HoldsBack (p : Workplace) (id : IntegrationId) : Prop :=
  ∃ i, p.site.store.record? id = some i ∧ p.worker.isUnderWay i id = true

/-- The last wake-up of an integration that waits is the check of a notification that a marker holds
back. -/
def Swallows (p : Workplace) (id : IntegrationId) : Prop :=
  p.worker.attempt = none ∧ p.Waits id ∧ p.HoldsBack id ∧
    ∃ rest, p.worker.queue = .check id .notification :: rest ∧
      ¬ { p.worker with queue := rest }.Wakes id

lemma waits_congr (hr : p'.worker.registry = p.worker.registry)
    (hs : p'.site.store.record? id = p.site.store.record? id) : p'.Waits id ↔ p.Waits id := by
  simp only [Waits, hr, hs]

/-- An integration that comes to wait has a wake-up: its record was written by another client, who
has a check queued, or by the worker, who arms a timer. -/
lemma waits_of_step (hk : p.site.store.Keyed) (hs : p.step e = some p') (hw : p'.Waits id) :
    p.Waits id ∨ p'.worker.Wakes id := by
  have hregistry := (setup_of_step hs).registry
  cases stepped_of_step hs with
  | @concluded a o environment ha hf r store hrun =>
    by_cases hid : id = a.id
    · subst hid
      exact Or.inr (Expects.of_arm _ _ _)
    · -- the records of others are as before
      have hamends := Worker.amends_of_settle hk hrun
      exact Or.inl ((waits_congr hregistry (hamends.others id hid)).1 hw)
  | checked idle hq hc => exact Or.inl ((waits_congr hregistry (by simp)).1 hw)
  | begun idle hq hb =>
    refine Or.inl ((waits_congr hregistry ?_).1 hw)
    cases hb with
    | unread hfault => simp [of, Worker.arm]
    | _ => rfl
  | written wr =>
    rw [worker_write]
    by_cases hid : id = wr.id
    · subst hid
      rcases wr.run_cases p.site.store with ⟨_, hrecords⟩ | ⟨hchanged, -⟩
      · exact Or.inl ((waits_congr hregistry (by simp [Store.record?, hrecords])).1 hw)
      · rw [if_pos hchanged]
        exact Or.inr (Expects.of_enqueue rfl trivial)
    · refine Or.inl ((waits_congr hregistry ?_).1 hw)
      rw [store_write, wr.record?_run_of_ne p.site.store hid]
  | _ => exact Or.inl hw

/-- After a check of an integration that waits the worker will come back to it, unless a marker held
the check back. -/
lemma wakes_of_check (h : Steady registry p) {trigger : Trigger} {rest : List Command}
    (idle : p.worker.attempt = none) (hq : p.worker.queue = .check id trigger :: rest)
    (hs : p.step .work = some p') (hw : p.Waits id) :
    p'.worker.Wakes id ∨ trigger = .notification ∧ p.HoldsBack id := by
  obtain ⟨i, d, hi, hd, hconv, hhandler⟩ := hw
  obtain ⟨hc, -⟩ := checked_of_step hs idle hq
  obtain ⟨pending, hnote⟩ := Worker.noteFired_eq { p.worker with queue := rest } id trigger
  rw [hnote] at hc
  generalize p'.worker = w at hc ⊢
  cases hc with
  | unread hfault => exact absurd h.readable hfault
  | gone hi' => simp [hi] at hi'
  | unwanted hi' hd' =>
    obtain rfl : i = _ := by simpa [hi] using hi'
    simp [hd] at hd'
  | @held i' d' hi' hd' ht hm =>
    refine Or.inr ⟨ht, i', hi', ?_⟩
    simpa [Worker.isUnderWay, hd'] using hm
  | converged hi' hd' hc' =>
    obtain rfl : i = _ := by simpa [hi] using hi'
    simp [hconv] at hc'
  | @unhandled i' d' hi' hd' hc' hl =>
    obtain rfl : i = i' := by simpa [hi] using hi'
    obtain rfl : d = d' := by simpa [hd] using hd'
    rw [show p.worker.registry.lookup? d = none from hl] at hhandler
    cases hhandler
  | @dispatched i' d' handler hi' hd' hc' hl hm =>
    refine Or.inl (Expects.of_enqueue ?_ trivial)
    simp [Command.about, h.keyed id i' hi']

/-- After a dispatch of an integration that waits the worker will come back to it. -/
lemma wakes_of_dispatch (h : Steady registry p) {handler : Handler} {rest : List Command}
    (idle : p.worker.attempt = none) (hq : p.worker.queue = .dispatch id handler :: rest)
    (hs : p.step .work = some p') (hw : p.Waits id) : p'.worker.Wakes id := by
  obtain ⟨i, d, hi, hd, hconv, -⟩ := hw
  have hb := begun_of_step hs idle hq
  generalize hx : (p'.worker, p'.site) = x at hb
  have hworker : p'.worker = x.1 := by rw [← hx]
  rw [hworker]
  cases hb with
  | unread hfault => exact absurd h.readable hfault
  | gone hi' => simp [hi] at hi'
  | unwanted hi' hd' =>
    obtain rfl : i = _ := by simpa [hi] using hi'
    simp [hd] at hd'
  | @stale i' d' hi' hd' hstale =>
    obtain rfl : i = i' := by simpa [hi] using hi'
    obtain rfl : d = d' := by simpa [hd] using hd'
    -- the dispatch is not meant for what is wanted now, so a check follows it
    have hother : handler.handles d = false := by simpa [hconv] using hstale
    rcases h.followed id i d hi hd handler rest (hq ▸ List.suffix_rfl) with hmeant | ⟨trigger, hmem⟩
    · simp [hother] at hmeant
    · exact Or.inr (Or.inl ⟨_, hmem, rfl, trivial⟩)
  | called _ _ _ _ _ _ => exact Or.inr (Or.inr ⟨_, rfl, rfl⟩)

/-- An integration that waits has a wake-up after a step if it had one before, unless the step
swallows a notification. -/
theorem wakes_of_step (h : Steady registry p) (hs : p.step e = some p')
    (hgood : p.Waits id → p.worker.Wakes id) (hslip : ¬ (e = .work ∧ p.Swallows id))
    (hw : p'.Waits id) : p'.worker.Wakes id := by
  rcases waits_of_step h.keyed hs hw with hwaits | hdone
  swap
  · exact hdone
  have hwakes := hgood hwaits
  by_cases hkept : ∀ c rest, e = .work → p.worker.attempt = none → p.worker.queue = c :: rest →
      { p.worker with queue := rest }.Wakes id
  · exact expects_step hs h.timers trivial hwakes hkept
  -- the command that is next is the last wake-up
  push Not at hkept
  obtain ⟨c, rest, rfl, idle, hq, hlast⟩ := hkept
  have habout : c.about = some id := by
    by_contra hne
    exact hlast (hwakes.rest hq fun h => absurd h hne)
  cases c with
  | check id' trigger =>
    obtain rfl : id' = id := by simpa [Command.about] using habout
    rcases wakes_of_check h idle hq hs hwaits with hdone | ⟨rfl, hheld⟩
    · exact hdone
    · exact absurd ⟨rfl, idle, hwaits, hheld, rest, hq, hlast⟩ hslip
  | dispatch id' handler =>
    obtain rfl : id' = id := by simpa [Command.about] using habout
    exact wakes_of_dispatch h idle hq hs hwaits
  | listMarkers question => cases habout

/-- A swallowed notification leaves the integration abandoned. -/
lemma Swallows.step (h : p.Swallows id) (alive : p.worker.alive = true)
    (readable : p.site.store.faults .fetch = 0) :
    ∃ p', p.step .work = some p' ∧ p'.Abandons id := by
  obtain ⟨idle, ⟨i, d, hi, hd, hconv, hhandler⟩, ⟨i', hi', hheld⟩, rest, hq, hlast⟩ := h
  obtain rfl : i = i' := by simpa [hi] using hi'
  obtain ⟨w, hc, hstep⟩ := exists_step_check alive idle hq
  have hw : w = { p.worker with queue := rest } := by
    cases hc with
    | unread hfault => exact absurd readable hfault
    | gone _ => rfl
    | unwanted _ _ => rfl
    | held _ _ _ _ => rfl
    | converged hi' _ hc' =>
      obtain rfl : i = _ := by simpa [hi] using hi'
      simp [hconv] at hc'
    | unhandled _ _ _ _ => rfl
    | @dispatched i' d' handler hi' hd' _ _ hm =>
      obtain rfl : i = i' := by simpa [hi] using hi'
      obtain rfl : d = d' := by simpa [hd] using hd'
      have hm : p.worker.markers.contains ⟨d, id⟩ = false := hm rfl
      simp [Worker.isUnderWay, hd, hm] at hheld
  subst hw
  exact ⟨_, hstep, ⟨i, d, by simpa using hi, hd, hconv, hhandler⟩, hlast⟩

/-! ## Markers -/

/-- The integration has a marker. -/
def HasMarker (p : Workplace) (id : IntegrationId) : Prop := p.worker.markers.containsId id = true

/-- To carry out the command leads to no attempt at the integration and leaves its markers: there is
no record, no state is wanted, or a check finds no handler for what is wanted. -/
def ComesToNothing (p : Workplace) (id : IntegrationId) (c : Command) : Prop :=
  p.site.store.record? id = none ∨ ∃ i, p.site.store.record? id = some i ∧
    (i.desired = none ∨ ∃ trigger d, c = .check id trigger ∧ i.desired = some d ∧
      i.isConverged = false ∧ p.worker.registry.lookup? d = none)

/-- The last command that gets past a marker of the integration comes to nothing. -/
def Strands (p : Workplace) (id : IntegrationId) : Prop :=
  p.worker.attempt = none ∧ p.HasMarker id ∧
    ∃ c rest, p.worker.queue = c :: rest ∧ c.about = some id ∧ c.PassesMarkers ∧
      p.ComesToNothing id c ∧ ¬ { p.worker with queue := rest }.Guarded id

/-- A marker that is new belongs to the attempt under way. -/
lemma marker_of_step (hk : p.site.store.Keyed) (hs : p.step e = some p') (hm : p'.HasMarker id) :
    p.HasMarker id ∨ p'.worker.Guarded id := by
  rw [HasMarker] at hm ⊢
  cases stepped_of_step hs with
  | @concluded a o environment ha hf r store hrun =>
    obtain ⟨failures, htally⟩ := Worker.tally_eq { p.worker with attempt := none } a.id r
    exact Or.inl (by simpa [of, Worker.arm, htally] using hm)
  | @checked id' trigger rest w idle hq hc =>
    obtain ⟨pending, hnote⟩ := Worker.noteFired_eq { p.worker with queue := rest } id' trigger
    rw [hnote] at hc
    cases hc with
    | converged _ _ _ => exact Or.inl (Markers.containsId_of_eraseId hm)
    | _ => exact Or.inl hm
  | @begun id' handler rest x idle hq hb =>
    cases hb with
    | unread _ => exact Or.inl hm
    | gone _ => exact Or.inl hm
    | unwanted _ _ => exact Or.inl hm
    | stale _ _ _ => exact Or.inl (Markers.containsId_of_eraseId hm)
    | @called i d hi hd hc hh call hcall run environment hrun =>
      rcases Markers.containsId_of_insert hm with hid | hold
      · have hid : id' = id := (hk id' i hi).symm.trans hid
        exact Or.inr (Or.inr (Or.inr ⟨_, rfl, hid⟩))
      · exact Or.inl (Markers.containsId_of_eraseId hold)
  | written wr =>
    rw [worker_write] at hm
    split at hm <;> exact Or.inl hm
  | _ => exact Or.inl hm

/-- A check that gets past a marker is followed up, or comes to nothing. -/
lemma guarded_of_check (h : Steady registry p) {trigger : Trigger} {rest : List Command}
    (idle : p.worker.attempt = none) (hq : p.worker.queue = .check id trigger :: rest)
    (ht : trigger ≠ .notification) (hs : p.step .work = some p') (hm : p'.HasMarker id) :
    p'.worker.Guarded id ∨ p.ComesToNothing id (.check id trigger) := by
  obtain ⟨hc, -⟩ := checked_of_step hs idle hq
  obtain ⟨pending, hnote⟩ := Worker.noteFired_eq { p.worker with queue := rest } id trigger
  rw [hnote] at hc
  rw [HasMarker] at hm
  generalize p'.worker = w at hc hm ⊢
  cases hc with
  | unread hfault => exact absurd h.readable hfault
  | gone hi => exact Or.inr (Or.inl hi)
  | unwanted hi hd => exact Or.inr (Or.inr ⟨_, hi, Or.inl hd⟩)
  | held _ _ htrigger _ => exact absurd htrigger ht
  | converged hi _ _ => simp [h.keyed id _ hi] at hm
  | unhandled hi hd hc hl => exact Or.inr (Or.inr ⟨_, hi, Or.inr ⟨_, _, rfl, hd, hc, hl⟩⟩)
  | dispatched hi _ _ _ _ =>
    refine Or.inl (Expects.of_enqueue ?_ trivial)
    simp [Command.about, h.keyed id _ hi]

/-- A dispatch makes an attempt, drops the markers, or comes to nothing. -/
lemma guarded_of_dispatch (h : Steady registry p) {handler : Handler} {rest : List Command}
    (idle : p.worker.attempt = none) (hq : p.worker.queue = .dispatch id handler :: rest)
    (hs : p.step .work = some p') (hm : p'.HasMarker id) :
    p'.worker.Guarded id ∨ p.ComesToNothing id (.dispatch id handler) := by
  have hb := begun_of_step hs idle hq
  rw [HasMarker] at hm
  generalize hx : (p'.worker, p'.site) = x at hb
  have hworker : p'.worker = x.1 := by rw [← hx]
  rw [hworker] at hm ⊢
  cases hb with
  | unread hfault => exact absurd h.readable hfault
  | gone hi => exact Or.inr (Or.inl hi)
  | unwanted hi hd => exact Or.inr (Or.inr ⟨_, hi, Or.inl hd⟩)
  | stale hi _ _ => simp [h.keyed id _ hi] at hm
  | called _ _ _ _ _ _ => exact Or.inl (Or.inr (Or.inr ⟨_, rfl, rfl⟩))

/-- The worker will come back to an integration with a marker after a step, whatever notifications
are held back, if it would have before, unless the step strands the marker. -/
theorem guarded_of_step (h : Steady registry p) (hs : p.step e = some p')
    (hgood : p.HasMarker id → p.worker.Guarded id) (hslip : ¬ (e = .work ∧ p.Strands id))
    (hm : p'.HasMarker id) : p'.worker.Guarded id := by
  rcases marker_of_step h.keyed hs hm with hmarker | hdone
  swap
  · exact hdone
  have hguarded := hgood hmarker
  by_cases hkept : ∀ c rest, e = .work → p.worker.attempt = none → p.worker.queue = c :: rest →
      { p.worker with queue := rest }.Guarded id
  · exact expects_step hs h.timers (by simp [Command.PassesMarkers]) hguarded hkept
  -- the command that is next is the last one that gets past the marker
  push Not at hkept
  obtain ⟨c, rest, rfl, idle, hq, hlast⟩ := hkept
  obtain ⟨habout, hpasses⟩ : c.about = some id ∧ c.PassesMarkers := by
    by_contra hne
    exact hlast (hguarded.rest hq fun habout hpasses => hne ⟨habout, hpasses⟩)
  have hstranded : ¬ p.ComesToNothing id c := fun hnothing =>
    hslip ⟨rfl, idle, hmarker, c, rest, hq, habout, hpasses, hnothing, hlast⟩
  cases c with
  | check id' trigger =>
    obtain rfl : id' = id := by simpa [Command.about] using habout
    exact (guarded_of_check h idle hq hpasses hs hm).resolve_right hstranded
  | dispatch id' handler =>
    obtain rfl : id' = id := by simpa [Command.about] using habout
    exact (guarded_of_dispatch h idle hq hs hm).resolve_right hstranded
  | listMarkers question => cases habout

/-- A marker that swallows a notification is not guarded. -/
lemma Swallows.unguarded (h : p.Swallows id) : p.HasMarker id ∧ ¬ p.worker.Guarded id := by
  obtain ⟨idle, -, ⟨i, -, hheld⟩, rest, hq, hlast⟩ := h
  constructor
  · cases hd : i.desired with
    | none => simp [Worker.isUnderWay, hd] at hheld
    | some d => exact Markers.containsId_of_contains (by simpa [Worker.isUnderWay, hd] using hheld)
  · intro hguarded
    have hrest := hguarded.rest hq fun _ hpasses => hpasses rfl
    rcases hrest with ht | ⟨c, hmem, habout, _⟩ | ha
    · exact hlast (Or.inl ht)
    · exact hlast (Or.inr (Or.inl ⟨c, hmem, habout, trivial⟩))
    · exact hlast (Or.inr (Or.inr ha))

/-! ## Runs in which an integration is abandoned -/

/-- The scan wakes every integration. -/
lemma wakes_start (config : ControllerConfig) (registry : Registry) {site : Site}
    (hk : site.store.Keyed) (hall : site.store.faults .fetchAll = 0)
    (hw : (start config registry site).Waits id) :
    (start config registry site).worker.Wakes id := by
  obtain ⟨records, hscan, hrecords⟩ := Worker.scan_eq { config, registry } site
  rw [Store.fetchAll_of_faults_eq_zero hall] at hscan
  obtain ⟨i, d, hi, -⟩ := hw
  replace hi : site.store.record? id = some i := by simpa [start, of, hscan] using hi
  have hmem : i ∈ records := hrecords hall ▸ Store.mem_values_of_record? hi
  refine Or.inr (Or.inl ⟨.check i.id .scan, ?_, ?_, trivial⟩)
  · simpa [start, of, hscan] using ⟨i, hmem, rfl⟩
  · simp [Command.about, hk id i hi]

lemma not_hasMarker_start (config : ControllerConfig) (registry : Registry) (site : Site) :
    ¬ (start config registry site).HasMarker id := by
  obtain ⟨records, hscan, -⟩ := Worker.scan_eq { config, registry } site
  simp [HasMarker, start, of, hscan]

/-- With a store that can be read, an integration comes to be abandoned in a run exactly if a
notification of it is swallowed, and before that its marker was stranded. -/
theorem abandoned_iff {hs : List Handler} {registry : Registry}
    (hr : Registry.ofHandlers hs = .ok registry) (config : ControllerConfig) {site : Site}
    (hk : site.store.Keyed) (hf : site.store.faults .fetch = 0)
    (hall : site.store.faults .fetchAll = 0) {es : List Event} (hes : ∀ e ∈ es, e.SparesReads)
    (id : IntegrationId) :
    ((∃ p, (start config registry site).Visits es p ∧ p.Abandons id) ↔
        ∃ p, (start config registry site).Takes es p .work ∧ p.Swallows id) ∧
      ∀ es₁ p, es₁ ++ [.work] <+: es → (start config registry site).run es₁ = some p →
        p.Swallows id → ∃ q, (start config registry site).Takes es₁ q .work ∧ q.Strands id := by
  have hsound := Registry.sound_ofHandlers hr
  have hsteady := steady_start config registry hk hf hall
  have hkeeps : ∀ e ∈ es, ∀ q q' : Workplace, Steady registry q → q.step e = some q' →
      Steady registry q' := fun e he q q' hq hstep => hq.step hsound (hes e he) hstep
  refine ⟨⟨?_, ?_⟩, ?_⟩
  · rintro ⟨p, hp, hwaits, hlost⟩
    obtain ⟨q, e, htakes, rfl, hslip⟩ :=
      exists_slip (fun q => q.Waits id → q.worker.Wakes id)
        (fun q e => e = .work ∧ q.Swallows id) hsteady (wakes_start config registry hk hall)
        hkeeps (fun e _ q q' hq hgood hstep hslip => wakes_of_step hq hstep hgood hslip) hp
        fun hgood => hlost (hgood hwaits)
    exact ⟨q, htakes, hslip⟩
  · rintro ⟨p, htakes, hslip⟩
    have hpsteady : Steady registry p := visits_invariant hsteady hkeeps htakes.visits
    obtain ⟨p', hstep, habandoned⟩ :=
      hslip.step (htakes.visits.alive (alive_start config registry site)) hpsteady.readable
    exact ⟨p', htakes.visits_step hstep, habandoned⟩
  · -- a marker that swallows was guarded once, so it was stranded on the way
    intro es₁ p hpre hp hslip
    obtain ⟨hmarker, hunguarded⟩ := hslip.unguarded
    have hsub : ∀ e ∈ es₁, e ∈ es := fun e he => hpre.subset (List.mem_append_left _ he)
    obtain ⟨q, e, htakes, rfl, hstranded⟩ :=
      exists_slip (fun q => q.HasMarker id → q.worker.Guarded id)
        (fun q e => e = .work ∧ q.Strands id) hsteady
        (fun hm => absurd hm (not_hasMarker_start config registry site))
        (fun e he => hkeeps e (hsub e he))
        (fun e _ q q' hq hgood hstep hslip => guarded_of_step hq hstep hgood hslip)
        ⟨es₁, List.prefix_rfl, hp⟩ fun hgood => hunguarded (hgood hmarker)
    exact ⟨q, htakes, hstranded⟩

/-! ## An abandoned integration -/

/-- The first dispatch leaves a marker and timer 1.  The record is marked for deletion, for which
there is no handler, and timer 1 fires: its check comes to nothing.  The notification of the change
back is swallowed. -/
def swallowing : List Event :=
  [.work, .work, .work, .write (.update { draftedRecord with desired := some .deleted }), .work,
    .fire 1, .work, .write (.update draftedRecord), .work]

lemma ofHandlers_quiet : Registry.ofHandlers [quietHandler] = .ok quietRegistry := rfl

lemma sparesReads_swallowing : ∀ e ∈ swallowing, e.SparesReads := by
  intro e he times heq
  subst heq
  simp [swallowing] at he

lemma abandons_swallowing : ∃ p, (start {} quietRegistry draftedSite).run swallowing = some p ∧
    p.Abandons "x" := by
  have hrun : ((start {} quietRegistry draftedSite).run swallowing).any (fun p =>
      p.site.store.record? "x" == some draftedRecord &&
        (p.worker.registry.lookup? .active).isSome && p.worker.timers.isEmpty &&
        p.worker.queue.isEmpty && p.worker.attempt.isNone) = true := by decide +kernel
  obtain ⟨p, hp, hend⟩ := (Option.any_eq_true _ _).1 hrun
  simp only [Bool.and_eq_true, beq_iff_eq, List.isEmpty_iff, Option.isNone_iff_eq_none] at hend
  obtain ⟨⟨⟨⟨hrecord, hhandler⟩, htimers⟩, hqueue⟩, hattempt⟩ := hend
  refine ⟨p, hp, ⟨draftedRecord, .active, hrecord, rfl, by decide, hhandler⟩, ?_⟩
  simp [Worker.Wakes, Expects, htimers, hqueue, hattempt]

/-- A marker is stranded in this run. -/
theorem strands_in_swallowing : ∃ q, (start {} quietRegistry draftedSite).Takes swallowing q .work ∧
    q.Strands "x" := by
  obtain ⟨p, hp, habandoned⟩ := abandons_swallowing
  have hk : draftedSite.store.Keyed := Store.keyed_singleton draftedRecord
  have hiff := abandoned_iff ofHandlers_quiet {} hk rfl rfl sparesReads_swallowing "x"
  obtain ⟨q, ⟨es₁, hpre, hq⟩, hslip⟩ := hiff.1.1 ⟨p, ⟨swallowing, List.prefix_rfl, hp⟩, habandoned⟩
  obtain ⟨r, ⟨es₂, hpre₂, hr⟩, hstranded⟩ := hiff.2 es₁ q hpre hq hslip
  exact ⟨r, ⟨es₂, hpre₂.trans ((List.prefix_append es₁ _).trans hpre), hr⟩, hstranded⟩

/-- It is not so that an integration that waits always has a wake-up. -/
theorem not_forall_wakes : ¬ ∀ (hs : List Handler) (registry : Registry) (site : Site)
    (es : List Event) (p : Workplace) (id : IntegrationId),
    Registry.ofHandlers hs = .ok registry → site.store.Keyed → site.store.faults .fetch = 0 →
    site.store.faults .fetchAll = 0 → (∀ e ∈ es, e.SparesReads) →
    (start {} registry site).run es = some p → p.Waits id → p.worker.Wakes id := by
  intro hall
  obtain ⟨p, hp, hwaits, hlost⟩ := abandons_swallowing
  have hk : draftedSite.store.Keyed := Store.keyed_singleton draftedRecord
  exact hlost (hall _ _ _ _ p "x" ofHandlers_quiet hk rfl rfl sparesReads_swallowing hp hwaits)

end Workplace

end Convergence
