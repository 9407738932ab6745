import Convergence.Proofs.Markers
import Convergence.Proofs.Worker.Dispatch
import Convergence.Proofs.Worker.Timers
/-!
# One marker for each integration

The set of markers could hold several for one integration.  That it does not comes of the order in
which a dispatch drops the old ones and inserts its own: it drops by the id of the command and
inserts under the id of the record, so it matters, too, that a record is stored under its own id.

`Marked` is what holds throughout a run, and `Dispatches` and `FindsConverged` name the two
occasions on which the markers change.  The main result is `markers_in_run`: at all times there is
at most one marker for each integration, and every answer lists the markers strictly in the order of
the ids; a dispatch that called its handler leaves just the marker of what it was for, and a check
that finds a record as wanted leaves none.
-/

namespace Convergence.Workplace

variable {p p' q : Workplace} {e : Event} {id : IntegrationId} {d : State}

/-! ## What holds throughout -/

/-- Records are stored under their own ids, at most one marker is held for each integration, and in
every answer the ids go up. -/
structure Marked (p : Workplace) : Prop where
  keyed : p.site.store.Keyed
  single : p.worker.markers.Single
  answers : ∀ a ∈ p.worker.answers, a.2.Pairwise fun m n => m.id < n.id

namespace Marked

/-- The markers may change as a check or a dispatch changes them. -/
lemma remark (h : p.Marked) (hk : p'.site.store.Keyed) {markers : Markers}
    (hsingle : markers.Single) (hmarkers : p'.worker.markers = markers)
    (hanswers : p'.worker.answers = p.worker.answers) : p'.Marked :=
  ⟨hk, hmarkers ▸ hsingle, hanswers ▸ h.answers⟩

lemma mono (h : p.Marked) (hk : p'.site.store.Keyed)
    (hmarkers : p'.worker.markers = p.worker.markers)
    (hanswers : p'.worker.answers = p.worker.answers) : p'.Marked :=
  h.remark hk h.single hmarkers hanswers

/-- A step keeps it so. -/
lemma step (h : p.Marked) (hs : p.step e = some p') : p'.Marked := by
  have hk : p'.site.store.Keyed := keyed_of_step h.keyed hs
  cases stepped_of_step hs with
  | @concluded a o environment ha hf r store hr =>
    obtain ⟨failures, htally⟩ := Worker.tally_eq { p.worker with attempt := none } a.id r
    exact h.mono hk (by simp [of, Worker.arm, htally]) (by simp [of, Worker.arm, htally])
  | @checked id trigger rest w idle hq hc =>
    obtain ⟨pending, hnote⟩ := Worker.noteFired_eq { p.worker with queue := rest } id trigger
    rw [hnote] at hc
    cases hc with
    | @converged i d hi hd hconverged => exact h.remark hk (h.single.eraseId i.id) rfl rfl
    | _ => exact h.mono hk rfl rfl
  | @begun id handler rest x idle hq hb =>
    cases hb with
    | @stale i d hi hd hstale => exact h.remark hk (h.single.eraseId i.id) rfl rfl
    | @called i d hi hd hunconverged hhandles call hcall run environment hrun =>
      -- the id of the command is the one that the record bears
      obtain rfl : i.id = id := h.keyed id i hi
      exact h.remark hk (h.single.replace ⟨d, i.id⟩) rfl rfl
    | _ => exact h.mono hk rfl rfl
  | @answered question rest idle hq =>
    refine ⟨hk, h.single, fun a ha => ?_⟩
    rcases List.mem_append.1 ha with ha | ha
    · exact h.answers a ha
    · obtain rfl : a = _ := List.mem_singleton.1 ha
      exact h.single.pairwise_listing
  | fired ht => exact h.mono hk rfl rfl
  | told hc => exact h.mono hk rfl rfl
  | written wr =>
    have hworker := worker_write p wr
    split at hworker
    · exact h.mono hk (hworker ▸ rfl) (hworker ▸ rfl)
    · exact h.mono hk (hworker ▸ rfl) (hworker ▸ rfl)
  | failing call times => exact h.mono hk rfl rfl
  | drifted environment clock moment => exact h.mono hk rfl rfl

/-- So does a run. -/
lemma run (h : p.Marked) {es : List Event} (hrun : p.run es = some p') : p'.Marked :=
  run_invariant h (fun _ _ _ _ hq hs => hq.step hs) hrun

/-- A new worker has no markers and has given no answers. -/
lemma start (config : ControllerConfig) (registry : Registry) {site : Site}
    (hk : site.store.Keyed) : (start config registry site).Marked := by
  obtain ⟨records, hscan, -⟩ := Worker.scan_eq { config, registry } site
  refine ⟨keyed_start config registry hk, ?_, ?_⟩
  · simpa [Workplace.start, of, hscan] using Markers.single_none
  · simp [Workplace.start, of, hscan]

end Marked

/-! ## While a handler is at work -/

/-- Only the worker touches the markers and the call under way. -/
lemma alone_of_step (he : e ≠ .work) (hs : p.step e = some p') :
    p'.worker.markers = p.worker.markers ∧ p'.worker.attempt = p.worker.attempt := by
  cases stepped_of_step hs with
  | concluded ha hf hr => exact absurd rfl he
  | checked idle hq hc => exact absurd rfl he
  | begun idle hq hb => exact absurd rfl he
  | answered idle hq => exact absurd rfl he
  | fired ht => exact ⟨rfl, rfl⟩
  | told hc => exact ⟨rfl, rfl⟩
  | written wr =>
    rw [worker_write]
    split
    · exact ⟨rfl, rfl⟩
    · exact ⟨rfl, rfl⟩
  | failing call times => exact ⟨rfl, rfl⟩
  | drifted environment clock moment => exact ⟨rfl, rfl⟩

lemma alone_of_run {es : List Event} (aside : ∀ e ∈ es, e ≠ .work) (hrun : p.run es = some p') :
    p'.worker.markers = p.worker.markers ∧ p'.worker.attempt = p.worker.attempt := by
  refine @run_invariant p p' (fun q => q.worker.markers = p.worker.markers ∧
    q.worker.attempt = p.worker.attempt) es ⟨rfl, rfl⟩ (fun e he q q' hq hs => ?_) hrun
  obtain ⟨hmarkers, hattempt⟩ := alone_of_step (aside e he) hs
  exact ⟨hmarkers.trans hq.1, hattempt.trans hq.2⟩

/-- The end of a call leaves the markers alone, whatever the outcome. -/
lemma markers_of_end {a : Attempt} (busy : p.worker.attempt = some a) (hs : p.work = some p') :
    p'.worker.markers = p.worker.markers := by
  rcases work_cases hs with hstepped | ⟨environment, rfl⟩
  · cases hstepped with
    | @concluded a o environment ha hf r store hr =>
      obtain ⟨failures, htally⟩ := Worker.tally_eq { p.worker with attempt := none } a.id r
      simp [of, Worker.arm, htally]
    | checked idle hq hc => cases busy.symm.trans idle
    | begun idle hq hb => cases busy.symm.trans idle
    | answered idle hq => cases busy.symm.trans idle
    | told hc => cases hc
  · rfl

/-- A dispatch that calls its handler, to bring the record to the state, from its beginning to its
end; meanwhile anything can happen but work of the worker, and the handler may end as it likes. -/
inductive Dispatches (p : Workplace) (id : IntegrationId) (d : State) : Workplace → Prop where
  | intro {h : Handler} {i : Integration} {rest : List Command} {es : List Event}
      {begun before q : Workplace} (idle : p.worker.attempt = none)
      (hq : p.worker.queue = .dispatch id h :: rest) (readable : p.site.store.faults .fetch = 0)
      (calls : Worker.Calls p.site.store id h i d) (begins : p.step .work = some begun)
      (aside : ∀ e ∈ es, e ≠ .work) (meanwhile : begun.run es = some before)
      (ends : before.next? .work = some q) : Dispatches p id d q

/-- A check that finds the record as wanted; a notification that is held off by a marker does not
look at the record. -/
inductive FindsConverged (p : Workplace) (id : IntegrationId) : Workplace → Prop where
  | intro {trigger : Trigger} {i : Integration} {d : State} {rest : List Command} {q : Workplace}
      (idle : p.worker.attempt = none) (hq : p.worker.queue = .check id trigger :: rest)
      (readable : p.site.store.faults .fetch = 0) (record : p.site.store.record? id = some i)
      (desired : i.desired = some d) (converged : i.isConverged = true)
      (looks : trigger = .notification → p.worker.markers.contains ⟨d, id⟩ = false)
      (carried : p.step .work = some q) : FindsConverged p id q

/-- A dispatch that called its handler leaves the marker of what it was for in place of all others
of the integration. -/
lemma Dispatches.markers (hk : p.site.store.Keyed) (h : p.Dispatches id d q) :
    q.worker.markers = (p.worker.markers.eraseId id).insert ⟨d, id⟩ := by
  obtain ⟨idle, hq, readable, calls, begins, aside, meanwhile, ends⟩ := h
  obtain rfl := hk _ _ calls.record
  have hbegun := (begun_of_step begins idle hq).eq_of_calls readable calls rfl
  have hmarkers := congrArg (·.1.markers) hbegun
  have hattempt := congrArg (·.1.attempt) hbegun
  obtain ⟨hbefore, busy⟩ := alone_of_run aside meanwhile
  exact (markers_of_end (busy.trans hattempt) ends).trans (hbefore.trans hmarkers)

/-- A check that finds the record as wanted drops all markers of the integration. -/
lemma FindsConverged.markers (hk : p.site.store.Keyed) (h : p.FindsConverged id q) :
    q.worker.markers = p.worker.markers.eraseId id := by
  obtain @⟨trigger, i, d, rest, q, idle, hq, readable, record, desired, converged, looks,
    carried⟩ := h
  obtain rfl := hk _ _ record
  obtain ⟨hc, -⟩ := checked_of_step carried idle hq
  obtain ⟨pending, hnote⟩ := Worker.noteFired_eq { p.worker with queue := rest } i.id trigger
  rw [hnote] at hc
  exact congrArg Worker.markers (hc.eq_of_converged readable record desired converged looks)

/-- Wherever a run has led, no two markers are held for one integration, and in all answers the ids
go up.  A whole dispatch from there that calls its handler leaves just the marker of the state it
was for, and keeps to one marker for each integration; a check that finds the record as wanted
leaves no marker of it; and the next answer lists just the markers that are held. -/
theorem markers_in_run {config : ControllerConfig} {registry : Registry} {site : Site}
    (hk : site.store.Keyed) {es : List Event}
    (hrun : (start config registry site).run es = some p) :
    p.worker.markers.Single ∧
      (∀ a ∈ p.worker.answers, a.2.Pairwise fun m n => m.id < n.id) ∧
      (∀ id d q, p.Dispatches id d q → q.worker.markers.Single ∧
        ∀ m, m ∈ q.worker.markers.held ∧ m.id = id ↔ m = ⟨d, id⟩) ∧
      (∀ id q, p.FindsConverged id q → ∀ m ∈ q.worker.markers.held, m.id ≠ id) ∧
      ∀ question rest q, p.worker.attempt = none →
        p.worker.queue = .listMarkers question :: rest → p.step .work = some q →
        ∃ listing, q.worker.answers = p.worker.answers ++ [(question, listing)] ∧
          listing.Pairwise (fun m n => m.id < n.id) ∧
          ∀ m, m ∈ listing ↔ m ∈ p.worker.markers.held := by
  have hmarked : p.Marked := (Marked.start config registry hk).run hrun
  refine ⟨hmarked.single, hmarked.answers, ?_, ?_, ?_⟩
  · intro id d q hdispatches
    rw [hdispatches.markers hmarked.keyed]
    refine ⟨hmarked.single.replace ⟨d, id⟩, fun m => ?_⟩
    rw [Markers.mem_held_replace _ ⟨d, id⟩]
    constructor
    · rintro ⟨hm | hm, hid⟩
      · exact hm
      · exact absurd hid hm.2
    · rintro rfl
      exact ⟨Or.inl rfl, rfl⟩
  · intro id q hfinds m hm
    rw [hfinds.markers hmarked.keyed] at hm
    simpa using (List.mem_filter.1 hm).2
  · intro question rest q idle hq hs
    cases stepped_of_step hs with
    | concluded ha hf hr => cases idle.symm.trans ha
    | checked _ hq' hc => cases hq.symm.trans hq'
    | begun _ hq' hb => cases hq.symm.trans hq'
    | answered _ hq' =>
      cases hq.symm.trans hq'
      exact ⟨_, rfl, hmarked.single.pairwise_listing, Markers.mem_listing _⟩
    | told hc => cases hc

/-- A call begins and ends, and in between somebody asks for the markers: afterwards the marker of
the record is held, and no other for it. -/
theorem markers_in_drafting : ∃ p q, (start {} quietRegistry draftedSite).run [.work] = some p ∧
    p.Dispatches "x" .active q ∧ q.worker.markers.Single ∧
      ∀ m, m ∈ q.worker.markers.held ∧ m.id = "x" ↔ m = ⟨.active, "x"⟩ := by
  have hrun : ((start {} quietRegistry draftedSite).run [.work]).any (fun p =>
      p.worker.attempt.isNone && p.site.store.faults .fetch == 0 &&
        p.site.store.record? "x" == some draftedRecord &&
        (p.worker.queue.head?.bind Command.dispatch?).any
          (fun next => next.1 == "x" && next.2.handles .active) &&
        (p.step .work).any fun begun => (begun.run [.ask 0]).any fun before =>
          (before.next? .work).isSome) = true := by decide +kernel
  obtain ⟨p, hp, hnext⟩ := (Option.any_eq_true _ _).1 hrun
  simp only [Bool.and_eq_true, beq_iff_eq, Option.isNone_iff_eq_none, Option.any_eq_true,
    Option.isSome_iff_exists, Option.bind_eq_some_iff] at hnext
  obtain ⟨⟨⟨⟨idle, readable⟩, hrecord⟩, ⟨id, h⟩, ⟨c, hhead, hc⟩, hid, hhandles⟩, begun, begins,
    before, meanwhile, q, ends⟩ := hnext
  obtain ⟨rest, hq⟩ := List.head?_eq_some_iff.1 hhead
  obtain rfl : c = .dispatch "x" h := by
    cases c <;> simp_all [Command.dispatch?]
  have hdispatches : p.Dispatches "x" .active q :=
    .intro idle hq readable ⟨hrecord, rfl, by decide, hhandles⟩ begins (by simp) meanwhile ends
  have hk : draftedSite.store.Keyed := Store.keyed_singleton draftedRecord
  obtain ⟨-, -, hmarker, -, -⟩ := markers_in_run hk hp
  exact ⟨p, q, hp, hdispatches, hmarker "x" .active q hdispatches⟩

end Convergence.Workplace
