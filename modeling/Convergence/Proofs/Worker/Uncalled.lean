import Convergence.Proofs.Worker.Backoff
import Convergence.Proofs.Worker.WakeUps
/-!
# Commands that lead to no call

A dispatch that finds nothing to call its handler for is stale: there is no record, no state is
wanted, the record is as wanted, or the handler is not meant for what is wanted.  A command whose
record cannot be read comes to no call either.  In both cases the integration may have a marker,
and then the question is what becomes of it.

The main results are

* `cleared_iff`: a stale dispatch touches nothing but the markers of its integration, and leaves
  none of them exactly if there was none or a state is wanted;
* `not_forall_cleared`: so it is not so that a stale dispatch always clears them;
* `timed_iff`: after a follow-up check or a dispatch that cannot read the record, the integration
  has a timer exactly if it had one before or the command is a dispatch;
* `not_forall_timed`: so it is not so that it always has one.
-/

namespace Convergence

namespace Worker

variable {w : Worker} {site : Site} {id : IntegrationId} {h : Handler} {c : Command}

/-! ## Stale dispatches -/

/-- The dispatch of the handler has nothing to call it for. -/
inductive Stale (store : Store) (id : IntegrationId) (h : Handler) : Prop where
  | gone (hi : store.record? id = none)
  | unwanted {i : Integration} (hi : store.record? id = some i) (hd : i.desired = none)
  | converged {i : Integration} {d : State} (hi : store.record? id = some i)
      (hd : i.desired = some d) (hc : i.isConverged = true)
  | misdirected {i : Integration} {d : State} (hi : store.record? id = some i)
      (hd : i.desired = some d) (hh : h.handles d = false)

/-- Some state is wanted of the integration. -/
def Wanted (store : Store) (id : IntegrationId) : Prop :=
  ∃ i d, store.record? id = some i ∧ i.desired = some d

/-- A stale dispatch drops the markers of its integration if some state is wanted, and does nothing
else. -/
lemma begin_of_stale (w : Worker) (hk : site.store.Keyed) (readable : site.store.faults .fetch = 0)
    (hs : Stale site.store id h) : (w.begin site id h).2 = site ∧
      ((Wanted site.store id ∧
          (w.begin site id h).1 = { w with markers := w.markers.eraseId id }) ∨
        ¬ Wanted site.store id ∧ (w.begin site id h).1 = w) := by
  have hb := begin_begun w site id h
  generalize w.begin site id h = x at hb
  cases hb with
  | unread hf => exact absurd readable hf
  | gone hi =>
    refine ⟨rfl, Or.inr ⟨?_, rfl⟩⟩
    rintro ⟨i, d, hi', -⟩
    cases hi.symm.trans hi'
  | unwanted hi hd =>
    refine ⟨rfl, Or.inr ⟨?_, rfl⟩⟩
    rintro ⟨i, d, hi', hd'⟩
    cases hi.symm.trans hi'
    cases hd.symm.trans hd'
  | @stale i d hi hd _ =>
    obtain rfl : i.id = id := hk id i hi
    exact ⟨rfl, Or.inl ⟨⟨i, d, hi, hd⟩, rfl⟩⟩
  | called hi hd hc hh hcall hrun =>
    -- each of the four reasons keeps the handler from being called
    exfalso
    cases hs with
    | gone hi' => cases hi.symm.trans hi'
    | unwanted hi' hd' =>
      cases hi.symm.trans hi'
      cases hd.symm.trans hd'
    | converged hi' hd' hc' =>
      cases hi.symm.trans hi'
      cases hc.symm.trans hc'
    | misdirected hi' hd' hh' =>
      cases hi.symm.trans hi'
      cases hd.symm.trans hd'
      cases hh.symm.trans hh'

lemma Stale.congr {h' : Handler} (hs : Stale site.store id h) (ht : h'.triggers = h.triggers) :
    Stale site.store id h' := by
  cases hs with
  | gone hi => exact .gone hi
  | unwanted hi hd => exact .unwanted hi hd
  | converged hi hd hc => exact .converged hi hd hc
  | misdirected hi hd hh => exact .misdirected hi hd (by simpa [Handler.handles, ht] using hh)

/-- A stale dispatch leaves all that is shared as it was, and of the worker all but the markers of
its integration; how its handler would be called does not matter.  No marker of the integration is
left exactly if none was held or some state is wanted; otherwise all are left. -/
theorem cleared_iff (w : Worker) (hk : site.store.Keyed)
    (readable : site.store.faults .fetch = 0) (hs : Stale site.store id h) :
    (w.handle site (.dispatch id h)).2 = site ∧
      (∃ markers, (w.handle site (.dispatch id h)).1 = { w with markers } ∧
        (∀ m, m.id ≠ id → (m ∈ markers.held ↔ m ∈ w.markers.held)) ∧
        ((∀ m ∈ markers.held, m.id ≠ id) ↔
          (∀ m ∈ w.markers.held, m.id ≠ id) ∨ Wanted site.store id) ∧
        (¬ Wanted site.store id → markers = w.markers)) ∧
      ∀ call select, w.handle site (.dispatch id { h with call, select }) =
        w.handle site (.dispatch id h) := by
  obtain ⟨hsite, hworker⟩ := begin_of_stale w hk readable hs
  refine ⟨hsite, ?_, fun call select => ?_⟩
  · rcases hworker with ⟨hwanted, hw⟩ | ⟨hunwanted, hw⟩
    · refine ⟨w.markers.eraseId id, hw, fun m hm => ?_, ⟨fun _ => Or.inr hwanted, fun _ m hm => ?_⟩,
        fun hno => absurd hwanted hno⟩
      · simp [Markers.eraseId, hm]
      · simpa using (List.mem_filter.1 hm).2
    · refine ⟨w.markers, hw, fun m _ => Iff.rfl, ⟨Or.inl, ?_⟩, fun _ => rfl⟩
      exact fun hor => hor.resolve_right hunwanted
  · have hs' : Stale site.store id { h with call, select } := hs.congr rfl
    obtain ⟨hsite', hworker'⟩ := begin_of_stale w hk readable hs'
    refine Prod.ext ?_ (hsite'.trans hsite.symm)
    change (w.begin site id { h with call, select }).1 = (w.begin site id h).1
    rcases hworker with ⟨hwanted, hw⟩ | ⟨hunwanted, hw⟩
    · exact (hworker'.resolve_right fun hno => hno.1 hwanted).2.trans hw.symm
    · exact (hworker'.resolve_left fun hyes => hunwanted hyes.1).2.trans hw.symm

open Workplace in
/-- A site whose only record is as wanted. -/
def settledSite : Site where
  store := { records := Dict.empty.insert "x" { draftedRecord with current := some .active } }
  clock := draftedRecord.createdAt

/-- A worker with a marker of an earlier attempt, and one of another integration. -/
def markedTwice : Worker where
  markers := (Markers.none.insert ⟨.inactive, "x"⟩).insert ⟨.active, "y"⟩

open Workplace in
/-- A dispatch for a record that is as wanted drops the marker of an earlier attempt, and no marker
of another integration. -/
theorem cleared_markedTwice : settledSite.store.Keyed ∧ settledSite.store.faults .fetch = 0 ∧
    Stale settledSite.store "x" quietHandler ∧
    ∃ markers, (markedTwice.handle settledSite (.dispatch "x" quietHandler)).1
        = { markedTwice with markers } ∧
      (∀ m ∈ markers.held, m.id ≠ "x") ∧ ⟨.active, "y"⟩ ∈ markers.held := by
  have hk : settledSite.store.Keyed :=
    Store.keyed_singleton { draftedRecord with current := some .active }
  have hs : Stale settledSite.store "x" quietHandler := .converged rfl rfl (by decide)
  obtain ⟨-, ⟨markers, hw, hothers, hnone, -⟩, -⟩ := cleared_iff markedTwice hk rfl hs
  refine ⟨hk, rfl, hs, markers, hw, hnone.2 (Or.inr ⟨_, _, rfl, rfl⟩), ?_⟩
  exact (hothers _ (by decide)).2 (by decide)

/-! ## Records that cannot be read -/

/-- A check that cannot read the record takes note of its timer, and does nothing else to the
worker. -/
lemma handleCheck_of_fault (w : Worker) (id : IntegrationId) (trigger : Trigger)
    (hf : site.store.faults .fetch ≠ 0) :
    (w.handleCheck site id trigger).1 = w.noteFired id trigger := by
  rw [handleCheck, Store.fetch_of_faults_ne_zero hf]
  rfl

/-- The command looks after the attempt of an integration: the check of its timer, or a dispatch. -/
def LooksAfter (id : IntegrationId) (c : Command) : Prop :=
  c = .check id .followUp ∨ ∃ h, c = .dispatch id h

/-- The integration has a live timer. -/
def Timed (w : Worker) (id : IntegrationId) : Prop := ∃ t ∈ w.timers, t.id = id

/-- A command that looks after an attempt and cannot read the record keeps the marker.  Afterwards
the integration has a timer exactly if it had one before or the command is a dispatch, and the same
goes for whether the worker will come back to the integration in spite of the marker. -/
theorem timed_iff (hf : site.store.faults .fetch ≠ 0) (hc : LooksAfter id c)
    (hm : w.markers.containsId id = true) :
    (w.handle site c).1.markers.containsId id = true ∧
      ((w.handle site c).1.Timed id ↔ w.Timed id ∨ ∃ h, c = .dispatch id h) ∧
      ((w.handle site c).1.Guarded id ↔ w.Guarded id ∨ ∃ h, c = .dispatch id h) := by
  rcases hc with rfl | ⟨h, rfl⟩
  · have hw : (w.handle site (.check id .followUp)).1 = { w with pending := w.pending.erase id } :=
      handleCheck_of_fault w id .followUp hf
    have hno : ¬ ∃ h, Command.check id .followUp = .dispatch id h := by simp
    rw [hw, or_iff_left hno, or_iff_left hno]
    exact ⟨hm, Iff.rfl, Iff.rfl⟩
  · have hw : (w.handle site (.dispatch id h)).1 = ((w.countFailure id).arm _ id).1 :=
      congrArg Prod.fst (begin_of_fault w id h hf)
    have harmed :
        ((w.countFailure id).arm { site with store := (site.store.fetch id).2 } id).1.Timed id :=
      ⟨_, TimersSound.mem_timers_arm.2 (Or.inr rfl), rfl⟩
    rw [hw]
    exact ⟨hm, ⟨fun _ => Or.inr ⟨h, rfl⟩, fun _ => harmed⟩,
      ⟨fun _ => Or.inr ⟨h, rfl⟩, fun _ => Or.inl harmed⟩⟩

end Worker

namespace Workplace

/-! ## A marker that a stale dispatch leaves -/

/-- The first dispatch leaves a marker and timer 1.  A request queues a second dispatch, and the
record is deleted before its turn. -/
def deleting : List Event := [.work, .work, .work, .request "x", .work, .write (.delete "x")]

/-- It is not so that a stale dispatch always leaves no marker. -/
theorem not_forall_cleared : ¬ ∀ (registry : Registry) (site : Site) (es : List Event)
    (p : Workplace) (id : IntegrationId) (h : Handler) (rest : List Command), site.store.Keyed →
    (start {} registry site).run es = some p → p.worker.attempt = none →
    p.worker.queue = .dispatch id h :: rest → p.site.store.faults .fetch = 0 →
    Worker.Stale p.site.store id h →
    ∀ m ∈ ({ p.worker with queue := rest }.handle p.site (.dispatch id h)).1.markers.held,
      m.id ≠ id := by
  intro hall
  have hrun : ((start {} quietRegistry draftedSite).run deleting).any (fun p =>
      p.worker.attempt.isNone && p.site.store.faults .fetch == 0 &&
        (p.site.store.record? "x").isNone && p.worker.markers.containsId "x" &&
        (p.worker.queue.head?.bind Command.dispatch?).any fun next => next.1 == "x") = true := by
    decide +kernel
  obtain ⟨p, hp, hend⟩ := (Option.any_eq_true _ _).1 hrun
  simp only [Bool.and_eq_true, beq_iff_eq, Option.isNone_iff_eq_none, Option.any_eq_true,
    Option.bind_eq_some_iff] at hend
  obtain ⟨⟨⟨⟨idle, readable⟩, hgone⟩, hmarker⟩, ⟨id, h⟩, ⟨c, hhead, hc⟩, rfl⟩ := hend
  obtain ⟨rest, hq⟩ := List.head?_eq_some_iff.1 hhead
  obtain rfl : c = .dispatch "x" h := by
    cases c <;> simp_all [Command.dispatch?]
  have hk : draftedSite.store.Keyed := Store.keyed_singleton draftedRecord
  have hkeyed : p.site.store.Keyed :=
    run_invariant (keyed_start {} quietRegistry hk)
      (fun _ _ _ _ hq hs => keyed_of_step hq hs) hp
  have hstale : Worker.Stale p.site.store "x" h := .gone hgone
  -- nothing is wanted of a record that is gone, so the marker is left
  obtain ⟨-, ⟨⟨i, d, hi, -⟩, -⟩ | ⟨-, hw⟩⟩ :=
    Worker.begin_of_stale { p.worker with queue := rest } hkeyed readable hstale
  · cases hgone.symm.trans hi
  · obtain ⟨m, hm, hid⟩ := Markers.containsId_eq_true.1 hmarker
    refine hall _ _ _ p "x" h rest hk hp idle hq readable hstale m ?_ hid
    change m ∈ (Worker.begin _ _ _ _).1.markers.held
    rw [hw]
    exact hm

/-! ## A marker without a timer -/

/-- The first dispatch leaves a marker and timer 1, which fires.  The next read fails. -/
def unreadable : List Event := [.work, .work, .work, .fire 1, .failNext .fetch 1]

lemma exists_unreadable : ∃ p, (start {} quietRegistry draftedSite).run unreadable = some p ∧
    p.worker.attempt = none ∧ p.worker.queue = [.check "x" .followUp] ∧
    p.site.store.faults .fetch ≠ 0 ∧ p.worker.markers.containsId "x" = true ∧
    p.worker.timers = [] := by
  have hrun : ((start {} quietRegistry draftedSite).run unreadable).any (fun p =>
      p.worker.attempt.isNone &&
        (match p.worker.queue with
          | .check id trigger :: rest => id == "x" && trigger == .followUp && rest.isEmpty
          | [] | .dispatch .. :: _ | .listMarkers _ :: _ => false) &&
        p.site.store.faults .fetch == 1 && p.worker.markers.containsId "x" &&
        p.worker.timers.isEmpty) = true := by
    decide +kernel
  obtain ⟨p, hp, hend⟩ := (Option.any_eq_true _ _).1 hrun
  simp only [Bool.and_eq_true, beq_iff_eq, Option.isNone_iff_eq_none, List.isEmpty_iff] at hend
  obtain ⟨⟨⟨⟨idle, hnext⟩, hfault⟩, hmarker⟩, htimers⟩ := hend
  have hq : p.worker.queue = [.check "x" .followUp] := by
    split at hnext
    · next id trigger rest hq =>
      simp only [Bool.and_eq_true, beq_iff_eq, List.isEmpty_iff] at hnext
      obtain ⟨⟨rfl, rfl⟩, rfl⟩ := hnext
      exact hq
    all_goals cases hnext
  exact ⟨p, hp, idle, hq, by simp [hfault], hmarker, htimers⟩

/-- The follow-up check of this run keeps the marker and leaves the integration without a timer and
without anything else that would bring the worker back to it. -/
theorem untimed_unreadable : ∃ p, (start {} quietRegistry draftedSite).run unreadable = some p ∧
    p.worker.queue = [.check "x" .followUp] ∧
    ∃ w, w = ({ p.worker with queue := [] }.handle p.site (.check "x" .followUp)).1 ∧
      w.markers.containsId "x" = true ∧ ¬ w.Timed "x" ∧ ¬ w.Guarded "x" := by
  obtain ⟨p, hp, idle, hq, hfault, hmarker, htimers⟩ := exists_unreadable
  obtain ⟨hkept, htimed, hguarded⟩ := Worker.timed_iff (w := { p.worker with queue := [] }) hfault
    (Or.inl rfl) hmarker
  refine ⟨p, hp, hq, _, rfl, hkept, fun ht => ?_, fun hg => ?_⟩
  · rcases htimed.1 ht with ⟨t, ht, -⟩ | ⟨h, heq⟩
    · simp [htimers] at ht
    · cases heq
  · rcases hguarded.1 hg with (⟨t, ht, -⟩ | ⟨c, hc, -⟩ | ⟨a, ha, -⟩) | ⟨h, heq⟩
    · simp [htimers] at ht
    · simp at hc
    · cases idle.symm.trans ha
    · cases heq

/-- It is not so that after such a command the integration always has a timer. -/
theorem not_forall_timed : ¬ ∀ (registry : Registry) (site : Site) (es : List Event)
    (p : Workplace) (id : IntegrationId) (c : Command) (rest : List Command), site.store.Keyed →
    (start {} registry site).run es = some p → p.worker.attempt = none →
    p.worker.queue = c :: rest → Worker.LooksAfter id c → p.site.store.faults .fetch ≠ 0 →
    p.worker.markers.containsId id = true →
    ({ p.worker with queue := rest }.handle p.site c).1.Timed id := by
  intro hall
  obtain ⟨p, hp, idle, hq, hfault, hmarker, htimers⟩ := exists_unreadable
  obtain ⟨t, ht, -⟩ := hall _ _ _ p "x" _ [] (Store.keyed_singleton draftedRecord) hp idle hq
    (Or.inl rfl) hfault hmarker
  have hw := Worker.handleCheck_of_fault { p.worker with queue := [] } "x" .followUp hfault
  change t ∈ (Worker.handleCheck _ _ _ _).1.timers at ht
  rw [hw] at ht
  simp [Worker.noteFired, htimers] at ht

end Workplace

end Convergence
