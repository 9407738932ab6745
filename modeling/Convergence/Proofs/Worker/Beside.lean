import Convergence.Proofs.Markers
import Convergence.Proofs.Store.Following
import Convergence.Proofs.Worker.Dispatch
import Convergence.Proofs.Worker.Expected
/-!
# What a command leaves alone

A check or a dispatch is about one integration.  It leaves alone the record of every other one, and
what the worker holds of it: its markers, its count of failures and its timers
(`spares_carryOut`).  It writes at most one record, its own, and that only once
(`writtenOnce_carryOut`).

A handler is at work for a time.  What the worker itself does to the store is seen if nobody else
writes it in that time.
-/

namespace Convergence

/-! ## One write -/

namespace Store

/-- No record was written and nothing announced. -/
structure Untouched (s s' : Store) : Prop where
  records : s'.records = s.records
  bus : s'.bus = s.bus
  announces : s'.announces = s.announces

/-- No record was written, or the one of this id was, once, and that was announced. -/
inductive WrittenOnce (id : IntegrationId) (s s' : Store) : Prop where
  | unwritten (hrecords : s'.records = s.records) (hbus : s'.bus = s.bus)
  | written (j : Integration) (hid : j.id = id) (hrecords : s'.records = s.records.insert id j)
      (hbus : s'.bus = (s.announce .updated id).bus)

variable {id : IntegrationId} {s s' s'' : Store} {i : Integration}

lemma untouched_fetch (s : Store) (id : IntegrationId) : Untouched s (s.fetch id).2 :=
  ⟨s.records_fetch id, s.bus_fetch id, s.announces_fetch id⟩

namespace Untouched

lemma refl (s : Store) : Untouched s s := ⟨rfl, rfl, rfl⟩

lemma writtenOnce (h : Untouched s s') : WrittenOnce id s s' := .unwritten h.records h.bus

lemma trans (h : Untouched s s') (h' : Untouched s' s'') : Untouched s s'' :=
  ⟨h'.records.trans h.records, h'.bus.trans h.bus, h'.announces.trans h.announces⟩

/-- The write may come later. -/
lemma trans_writtenOnce (h : Untouched s s') (h' : WrittenOnce id s' s'') :
    WrittenOnce id s s'' := by
  cases h' with
  | unwritten hrecords hbus =>
    exact .unwritten (hrecords.trans h.records) (hbus.trans h.bus)
  | written j hid hrecords hbus =>
    refine .written j hid (by rw [hrecords, h.records]) ?_
    rw [hbus, announce, announce, h.announces, h.bus]
    split
    · rfl
    · exact h.bus

end Untouched

lemma untouched_update (h : (s.update i).1.isOk = false) : Untouched s (s.update i).2 :=
  have hfailed : ((Write.update i).run s).1 = false := h
  have hkept := Write.run_of_failed hfailed
  ⟨hkept.1, hkept.2, Write.announces_run (.update i) s⟩

lemma writtenOnce_update (hid : i.id = id) : WrittenOnce id s (s.update i).2 := by
  cases hok : (s.update i).1.isOk with
  | false => exact (untouched_update hok).writtenOnce
  | true =>
    rcases s.enter_cases .update with ⟨n, -, henter⟩ | ⟨-, henter⟩
    · simp [update, henter, Except.isOk, Except.toBool] at hok
    · rw [update, henter] at hok ⊢
      dsimp only at hok ⊢
      split at hok
      · next hthere =>
        rw [if_pos hthere]
        refine .written i hid (by simp [hid]) ?_
        rw [announce, announce, hid]
        split <;> rfl
      · simp [Except.isOk, Except.toBool] at hok

end Store

namespace Worker

open Store (Untouched WrittenOnce)

variable {store s : Store} {clock : Timestamp} {id : IntegrationId}

/-- A report is written once, or not at all if it comes to an error. -/
lemma writtenOnce_apply (hk : store.Keyed) (clock : Timestamp) (id : IntegrationId)
    (u : StatusUpdate) :
    WrittenOnce id store (apply store clock id u).2 ∧
      ((apply store clock id u).1.isOk = false → Untouched store (apply store clock id u).2) := by
  have hfetch := store.untouched_fetch id
  rw [apply]
  split
  · next h =>
    rw [h] at hfetch
    exact ⟨hfetch.writtenOnce, fun _ => hfetch⟩
  · next h =>
    rw [h] at hfetch
    exact ⟨hfetch.writtenOnce, fun _ => hfetch⟩
  · next i s h =>
    rw [h] at hfetch
    have hid : i.id = id := hk.congr hfetch.records id i (Store.record?_of_fetch h)
    split
    · exact ⟨hfetch.writtenOnce, fun _ => hfetch⟩
    · next j hj =>
      have hjid : j.id = id := (Integration.sameOwn_applyUpdate hj).id.trans hid
      have hwritten := Store.writtenOnce_update (s := s) hjid
      split
      · next e s' hupdate =>
        have hfailed : Untouched s (s.update j).2 := Store.untouched_update (by rw [hupdate]; rfl)
        rw [hupdate] at hwritten hfailed
        exact ⟨hfetch.trans_writtenOnce hwritten, fun _ => hfetch.trans hfailed⟩
      · next s' hupdate =>
        rw [hupdate] at hwritten
        exact ⟨hfetch.trans_writtenOnce hwritten, fun hno => by cases hno⟩

lemma writtenOnce_recordError (hk : store.Keyed) (clock : Timestamp) (id : IntegrationId)
    (e : ReconcileError) : WrittenOnce id store (recordError store clock id e) := by
  have hfetch := store.untouched_fetch id
  rw [recordError]
  split
  · next i s h =>
    rw [h] at hfetch
    have hid : i.id = id := hk.congr hfetch.records id i (Store.record?_of_fetch h)
    exact hfetch.trans_writtenOnce (Store.writtenOnce_update hid)
  · next h =>
    rw [h] at hfetch
    exact hfetch.writtenOnce

lemma writtenOnce_verdict (hk : store.Keyed) (clock : Timestamp) (id : IntegrationId)
    (o : Outcome) : WrittenOnce id store (verdict store clock id o).2 ∧
      ((verdict store clock id o).1.isOk = false →
        Untouched store (verdict store clock id o).2) := by
  cases o with
  | report u => exact writtenOnce_apply hk clock id u
  | _ => exact ⟨(Untouched.refl store).writtenOnce, fun _ => .refl store⟩

/-- The end of a dispatch writes its record once at most: an error is noted only if the report was
not written. -/
theorem writtenOnce_settle (hk : store.Keyed) (clock : Timestamp) (id : IntegrationId)
    (o : Outcome) : WrittenOnce id store (settle store clock id o).2 := by
  have hverdict := writtenOnce_verdict hk clock id o
  rw [settle]
  split
  · next h =>
    rw [h] at hverdict
    exact hverdict.1
  · next e s h =>
    rw [h] at hverdict
    -- the report was not written, so the note of the error is the first write
    have hs : Untouched store s := hverdict.2 rfl
    exact hs.trans_writtenOnce (writtenOnce_recordError (hk.congr hs.records) clock id e)

end Worker

/-! ## What the worker holds of an integration -/

namespace Worker

/-- The live timers of an integration. -/
def timersOf (w : Worker) (id : IntegrationId) : List Timer := w.timers.filter (·.id = id)

/-- The markers and the count of failures of an integration are the same for both workers. -/
structure SameOf (id : IntegrationId) (w w' : Worker) : Prop where
  markers : ∀ d, w'.markers.contains ⟨d, id⟩ = w.markers.contains ⟨d, id⟩
  failures : w'.failures.find? id = w.failures.find? id

variable {id other : IntegrationId} {w w' w'' : Worker} {site : Site} {serials : Nat}

namespace SameOf

lemma refl (id : IntegrationId) (w : Worker) : w.SameOf id w := ⟨fun _ => rfl, rfl⟩

lemma symm (h : w.SameOf id w') : w'.SameOf id w :=
  ⟨fun d => (h.markers d).symm, h.failures.symm⟩

lemma trans (h : w.SameOf id w') (h' : w'.SameOf id w'') : w.SameOf id w'' :=
  ⟨fun d => (h'.markers d).trans (h.markers d), h'.failures.trans h.failures⟩

end SameOf

lemma sameOf_marked (h : other ≠ id) (d : State) : w.SameOf other (w.marked id ⟨d, id⟩) := by
  refine ⟨fun d' => ?_, rfl⟩
  rw [Bool.eq_iff_iff, marked, Markers.contains_insert, Markers.contains_eraseId_of_ne _ h]
  simp [h]

/-- Markers that are dropped are of the integration whose record was found. -/
lemma sameOf_dropStale (hk : site.store.Keyed) (h : other ≠ id) :
    w.SameOf other (w.dropStale (site.store.record? id)) := by
  simp only [dropStale]
  split
  · exact .refl other w
  · next i hi =>
    have hid : other ≠ i.id := by rwa [hk id i hi]
    split
    · exact .refl other w
    · exact ⟨fun _ => Markers.contains_eraseId_of_ne _ hid, rfl⟩

lemma dropStale_eq (w : Worker) (record : Option Integration) :
    ∃ markers, w.dropStale record = { w with markers } := by
  simp only [dropStale]
  split
  · exact ⟨w.markers, rfl⟩
  · split
    · exact ⟨w.markers, rfl⟩
    · exact ⟨_, rfl⟩

lemma sameOf_tally (h : other ≠ id) (r : Except ReconcileError Bool) :
    w.SameOf other (w.tally id r) := by
  rcases r with e | _ | _
  · exact ⟨fun _ => rfl, Dict.find?_insert_of_ne _ _ h⟩
  · exact ⟨fun _ => rfl, Dict.find?_erase_of_ne _ h⟩
  · exact ⟨fun _ => rfl, Dict.find?_insert_of_ne _ _ h⟩

lemma tally_keeps (w : Worker) (id : IntegrationId) (r : Except ReconcileError Bool) :
    (w.tally id r).pending = w.pending ∧ (w.tally id r).timers = w.timers := by
  obtain ⟨failures, htally⟩ := w.tally_eq id r
  rw [htally]
  exact ⟨rfl, rfl⟩

/-- To arm a timer aborts none of another integration. -/
lemma timersOf_arm (hs : w.TimersSound serials) (h : other ≠ id) :
    (w.arm site id).1.timersOf other = w.timersOf other := by
  have hkept : ∀ t ∈ w.timers,
      (decide (t.id = other) && decide (w.pending.find? id ≠ some t.serial))
        = decide (t.id = other) := by
    intro t ht
    by_cases hid : t.id = other
    · -- what is recorded as pending for an integration is no timer of another one
      have hfree : w.pending.find? id ≠ some t.serial := fun hpending =>
        h (hid.symm.trans ((hs.owned id t.serial hpending).2 t ht rfl))
      simp [hfree]
    · simp [hid]
  simp only [timersOf, arm, List.filter_append, List.filter_filter]
  rw [List.filter_congr hkept]
  simp [Ne.symm h]

end Worker

namespace Workplace

/-- The record of an integration, and what the worker holds of it but the timers, are the same. -/
structure SameOf (id : IntegrationId) (p q : Workplace) : Prop where
  record : q.site.store.record? id = p.site.store.record? id
  worker : p.worker.SameOf id q.worker

/-- An integration is left alone: its record, its markers, its count of failures and its timers are
as they were.  The timers end with the worker, if that ends. -/
structure Spares (other : IntegrationId) (p q : Workplace) : Prop where
  same : p.SameOf other q
  pending : q.worker.pending.find? other = p.worker.pending.find? other
  timers : p.TimersSound → q.worker.alive = true →
    q.worker.timersOf other = p.worker.timersOf other

variable {p : Workplace} {id other : IntegrationId} {meanwhile : Site → Site}

/-- Carries out a command to its end; while a handler is at work, the site changes. -/
def carryOut (p : Workplace) (c : Command) (meanwhile : Site → Site) : Workplace :=
  match c with
  | .dispatch id h => of (p.worker.dispatch p.site id h meanwhile)
  | c => of (p.worker.handle p.site c)

/-- A check leaves alone whatever is of another integration. -/
lemma spares_check (hk : p.site.store.Keyed) (h : other ≠ id) (trigger : Trigger) :
    p.Spares other (of (p.worker.handleCheck p.site id trigger)) := by
  obtain ⟨hc, hsite⟩ := Worker.handleCheck_checked p.worker p.site id trigger
  have hnoted : p.worker.SameOf other (p.worker.noteFired id trigger) ∧
      (p.worker.noteFired id trigger).pending.find? other = p.worker.pending.find? other ∧
      (p.worker.noteFired id trigger).timers = p.worker.timers := by
    rw [Worker.noteFired]
    split
    · exact ⟨⟨fun _ => rfl, rfl⟩, Dict.find?_erase_of_ne _ h, rfl⟩
    · exact ⟨.refl _ _, rfl, rfl⟩
  obtain ⟨hsame, hpending, htimers⟩ := hnoted
  have hchecked : (p.worker.noteFired id trigger).SameOf other
      (p.worker.handleCheck p.site id trigger).1 := by
    generalize (p.worker.handleCheck p.site id trigger).1 = w at hc ⊢
    cases hc with
    | @converged i d hi hd hconverged =>
      have hid : other ≠ i.id := by rwa [hk id i hi]
      exact ⟨fun _ => Markers.contains_eraseId_of_ne _ hid, Dict.find?_erase_of_ne _ hid⟩
    | dispatched hi hd hconverged hl hm => exact ⟨fun _ => rfl, rfl⟩
    | _ => exact .refl _ _
  refine ⟨⟨?_, hsame.trans hchecked⟩, ?_, fun _ _ => ?_⟩
  · simp only [of, hsite, Store.record?_fetch]
  · simp only [of, hc.pending, hpending]
  · simp only [Worker.timersOf, of, hc.timers, htimers]

/-- What ends with a timer leaves alone whatever is of another integration, if the rest does. -/
lemma spares_arm (h : other ≠ id) {w : Worker} {s : Site} (hsame : p.worker.SameOf other w)
    (hpending : w.pending = p.worker.pending) (htimers : w.timers = p.worker.timers)
    (hrecord : s.store.record? other = p.site.store.record? other) :
    p.Spares other (of (w.arm s id)) where
  same := ⟨hrecord, hsame.markers, hsame.failures⟩
  pending := by
    show (w.pending.insert id s.serials).find? other = p.worker.pending.find? other
    rw [Dict.find?_insert_of_ne _ _ h, hpending]
  timers := by
    intro hs _
    have hs : w.TimersSound p.site.serials := hs.congr htimers hpending (Nat.le_refl _)
    show (w.arm s id).1.timersOf other = p.worker.timersOf other
    rw [Worker.timersOf_arm hs h, Worker.timersOf, htimers, Worker.timersOf]

/-- A dispatch leaves alone whatever is of another integration. -/
lemma spares_dispatch (idle : p.worker.attempt = none) (hk : p.site.store.Keyed) (h : other ≠ id)
    (handler : Handler) (hm : ∀ s, (meanwhile s).store = s.store) :
    p.Spares other (of (p.worker.dispatch p.site id handler meanwhile)) := by
  rcases Worker.refused_or_calls p.site id handler with hno | ⟨hf, i, d, hcalls⟩
  · by_cases hf : p.site.store.faults .fetch = 0
    · rw [Worker.dispatch_of_uncalled meanwhile idle hf (hno.resolve_left (not_not_intro hf))]
      have hsame := Worker.sameOf_dropStale (w := p.worker) hk h
      obtain ⟨markers, hdropped⟩ := p.worker.dropStale_eq (p.site.store.record? id)
      rw [hdropped] at hsame ⊢
      exact ⟨⟨rfl, hsame⟩, rfl, fun _ _ => rfl⟩
    · rw [Worker.dispatch_of_unread id handler meanwhile idle hf]
      exact spares_arm h (Worker.sameOf_tally h (.ok true)) rfl rfl (Store.record?_fetch _ _ _)
  · have hstore := hm { p.site with
      environment := (handler.call (Worker.callOf p.site handler i) p.site.environment).2
      serials := p.site.serials + 1 }
    rw [Worker.dispatch_of_called p.worker hf hcalls rfl rfl rfl, hk id i hcalls.record]
    generalize meanwhile _ = s at hstore ⊢
    split
    · -- the handler breaks down, and the worker with it
      obtain ⟨hmarkers, hfailures⟩ := Worker.sameOf_marked (w := p.worker) h d
      exact ⟨⟨congrArg (Store.record? · other) hstore, hmarkers, hfailures⟩, rfl,
        fun _ halive => by cases halive⟩
    · rw [Worker.conclude_eq]
      dsimp only
      have hks : s.store.Keyed := by rwa [hstore]
      have hamends := fun o => Worker.amends_settle hks s.clock id o
      refine spares_arm h ((Worker.sameOf_marked h d).trans (Worker.sameOf_tally h _)) ?_ ?_ ?_
      · exact (Worker.tally_keeps _ _ _).1
      · exact (Worker.tally_keeps _ _ _).2
      · rw [(hamends _).others other h, hstore]

/-- **What a command leaves alone.**  A check or a dispatch leaves alone whatever is of another
integration. -/
theorem spares_carryOut (idle : p.worker.attempt = none) (hk : p.site.store.Keyed) {c : Command}
    (hc : c.about = some id) (h : other ≠ id) (hm : ∀ s, (meanwhile s).store = s.store) :
    p.Spares other (p.carryOut c meanwhile) := by
  cases c with
  | check id' trigger =>
    obtain rfl : id' = id := Option.some.inj hc
    exact spares_check hk h trigger
  | dispatch id' handler =>
    obtain rfl : id' = id := Option.some.inj hc
    exact spares_dispatch idle hk h handler hm
  | listMarkers question => cases hc

/-- A dispatch writes its record once at most. -/
lemma writtenOnce_dispatch (idle : p.worker.attempt = none) (hk : p.site.store.Keyed)
    (id : IntegrationId) (handler : Handler) (hm : ∀ s, (meanwhile s).store = s.store) :
    p.site.store.WrittenOnce id (p.worker.dispatch p.site id handler meanwhile).2.store := by
  rcases Worker.refused_or_calls p.site id handler with hno | ⟨hf, i, d, hcalls⟩
  · by_cases hf : p.site.store.faults .fetch = 0
    · rw [Worker.dispatch_of_uncalled meanwhile idle hf (hno.resolve_left (not_not_intro hf))]
      exact (Store.Untouched.refl _).writtenOnce
    · rw [Worker.dispatch_of_unread id handler meanwhile idle hf]
      exact (Store.untouched_fetch _ id).writtenOnce
  · have hsettled : ∃ clock o, (p.worker.dispatch p.site id handler meanwhile).2.store
        = (Worker.settle p.site.store clock id o).2 := by
      rw [(Worker.dispatch_of_calls p.worker hf hcalls rfl rfl rfl).1, hm]
      exact ⟨_, _, rfl⟩
    obtain ⟨clock, o, hstore⟩ := hsettled
    rw [hstore]
    exact Worker.writtenOnce_settle hk clock id o

/-- A check or a dispatch writes the record of its integration once at most, and no other. -/
theorem writtenOnce_carryOut (idle : p.worker.attempt = none) (hk : p.site.store.Keyed)
    {c : Command} (hc : c.about = some id) (hm : ∀ s, (meanwhile s).store = s.store) :
    p.site.store.WrittenOnce id (p.carryOut c meanwhile).site.store := by
  cases c with
  | check id' trigger =>
    obtain rfl : id' = id := Option.some.inj hc
    obtain ⟨-, hsite⟩ := Worker.handleCheck_checked p.worker p.site id' trigger
    show p.site.store.WrittenOnce id' (p.worker.handleCheck p.site id' trigger).2.store
    rw [hsite]
    exact (Store.untouched_fetch _ id').writtenOnce
  | dispatch id' handler =>
    obtain rfl : id' = id := Option.some.inj hc
    exact writtenOnce_dispatch idle hk id' handler hm
  | listMarkers question => cases hc

end Workplace

end Convergence
