import Convergence.Proofs.Worker.Runs
/-!
# Follow-up timers

Arming a timer takes the place of the timer that is recorded as pending for the integration.  So
there is one timer for each integration as long as every live timer is the recorded one.

A follow-up check drops the record of its integration, because it takes the timer for the one that
fired.  If a dispatch has armed another timer between the firing and the check, that timer goes on
without a record, and the next one does not take its place.

The main results are

* `TimersSound.step`: timers have numbers of their own, and a record is about its own integration;
* `timers_unrecorded_iff`: in a run there comes to be a live timer without a record, or a second one
  for an integration, exactly if a follow-up check is carried out while its integration has a live
  timer;
* `two_timers`: this happens.
-/

namespace Convergence

namespace Worker

/-- The numbers of timers are in order: those given so far are below a bound, no two live timers
have the same, and what is recorded as pending for an integration is no timer of another one. -/
structure TimersSound (w : Worker) (serials : Nat) : Prop where
  numbered : ∀ t ∈ w.timers, t.serial < serials
  distinct : (w.timers.map (·.serial)).Nodup
  owned : ∀ id n, w.pending.find? id = some n →
    n < serials ∧ ∀ t ∈ w.timers, t.serial = n → t.id = id

/-- Every live timer is the one recorded as pending for its integration. -/
def TimersRecorded (w : Worker) : Prop := ∀ t ∈ w.timers, w.pending.find? t.id = some t.serial

/-- No integration has two live timers, and every live timer is recorded. -/
def OneTimerEach (w : Worker) : Prop :=
  (∀ id, w.timers.countP (·.id == id) ≤ 1) ∧ w.TimersRecorded

variable {w w' : Worker} {site : Site} {serials serials' : Nat} {id : IntegrationId}

lemma timersSound_start (config : ControllerConfig) (registry : Registry) (serials : Nat) :
    ({ config, registry } : Worker).TimersSound serials :=
  ⟨by simp, by simp, by simp⟩

namespace TimersSound

lemma congr (h : w.TimersSound serials) (ht : w'.timers = w.timers) (hp : w'.pending = w.pending)
    (hle : serials ≤ serials') : w'.TimersSound serials' where
  numbered := by
    intro t hmem
    rw [ht] at hmem
    exact Nat.lt_of_lt_of_le (h.numbered t hmem) hle
  distinct := by
    rw [ht]
    exact h.distinct
  owned := by
    intro id n hn
    rw [hp] at hn
    obtain ⟨hlt, hown⟩ := h.owned id n hn
    exact ⟨Nat.lt_of_lt_of_le hlt hle, by rwa [ht]⟩

/-- A record may be dropped. -/
lemma erase (h : w.TimersSound serials) (id : IntegrationId) :
    { w with pending := w.pending.erase id }.TimersSound serials where
  numbered := h.numbered
  distinct := h.distinct
  owned := by
    intro other n hn
    by_cases hother : other = id
    · subst hother
      simp at hn
    · exact h.owned other n (by rwa [Dict.find?_erase_of_ne _ hother] at hn)

lemma noteFired (h : w.TimersSound serials) (id : IntegrationId) (trigger : Trigger) :
    (w.noteFired id trigger).TimersSound serials := by
  rw [Worker.noteFired]
  split
  · exact h.erase id
  · exact h

lemma fire (h : w.TimersSound serials) (t : Timer) : (w.fire t).TimersSound serials where
  numbered := fun u hu => h.numbered u (List.mem_filter.1 hu).1
  distinct := h.distinct.sublist ((List.filter_sublist).map _)
  owned := by
    intro id n hn
    obtain ⟨hlt, hown⟩ := h.owned id n hn
    exact ⟨hlt, fun u hu => hown u (List.mem_filter.1 hu).1⟩

/-- The live timers after arming are the one armed and those that were not recorded for its
integration. -/
lemma mem_timers_arm {t : Timer} : t ∈ (w.arm site id).1.timers ↔
    (t ∈ w.timers ∧ w.pending.find? id ≠ some t.serial) ∨
      t = ⟨site.serials, id, site.moment + milliseconds (w.followUpDelay id)⟩ := by
  simp [arm]

lemma arm (h : w.TimersSound site.serials) (id : IntegrationId) :
    (w.arm site id).1.TimersSound (w.arm site id).2.serials where
  numbered := by
    intro t ht
    change t.serial < site.serials + 1
    rcases mem_timers_arm.1 ht with ⟨hmem, _⟩ | rfl
    · exact Nat.lt_succ_of_lt (h.numbered t hmem)
    · exact Nat.lt_succ_self _
  distinct := by
    simp only [Worker.arm, List.map_append, List.map_cons, List.map_nil]
    refine List.nodup_append.2 ⟨h.distinct.sublist ((List.filter_sublist).map _), by simp, ?_⟩
    intro n hn m hm
    obtain ⟨t, ht, rfl⟩ := List.mem_map.1 hn
    have hlt := h.numbered t (List.mem_filter.1 ht).1
    have hm : m = site.serials := by simpa using hm
    omega
  owned := by
    intro other n hn
    change n < site.serials + 1 ∧ _
    have hn : (if other = id then some site.serials else w.pending.find? other) = some n := by
      simpa [Worker.arm, Dict.find?_insert] using hn
    split at hn
    · next hother =>
      obtain rfl : site.serials = n := by simpa using hn
      refine ⟨Nat.lt_succ_self _, fun t ht hser => ?_⟩
      -- the number is new, so it is the number of the new timer only
      rcases mem_timers_arm.1 ht with ⟨hmem, _⟩ | rfl
      · exact absurd hser (Nat.ne_of_lt (h.numbered t hmem))
      · exact hother.symm
    · obtain ⟨hlt, hown⟩ := h.owned other n hn
      refine ⟨Nat.lt_succ_of_lt hlt, fun t ht hser => ?_⟩
      rcases mem_timers_arm.1 ht with ⟨hmem, _⟩ | rfl
      · exact hown t hmem hser
      · exact absurd hser (Nat.ne_of_gt hlt)

end TimersSound

namespace TimersRecorded

lemma congr (h : w.TimersRecorded) (ht : w'.timers = w.timers) (hp : w'.pending = w.pending) :
    w'.TimersRecorded := by
  rw [TimersRecorded]
  rw [ht, hp]
  exact h

lemma fire (h : w.TimersRecorded) (t : Timer) : (w.fire t).TimersRecorded :=
  fun u hu => h u (List.mem_filter.1 hu).1

lemma arm (h : w.TimersRecorded) (site : Site) (id : IntegrationId) :
    (w.arm site id).1.TimersRecorded := by
  intro t ht
  change (w.pending.insert id site.serials).find? t.id = some t.serial
  rcases TimersSound.mem_timers_arm.1 ht with ⟨hmem, hkept⟩ | rfl
  · -- a recorded timer of the integration was aborted, so this one is of another
    have hne : t.id ≠ id := by
      rintro rfl
      exact hkept (h t hmem)
    rw [Dict.find?_insert_of_ne _ _ hne]
    exact h t hmem
  · simp

/-- Recorded timers of one integration have one number. -/
lemma countP_le_one (h : w.TimersRecorded) (hs : w.TimersSound serials) (id : IntegrationId) :
    w.timers.countP (·.id == id) ≤ 1 := by
  have hsame : ∀ t ∈ w.timers, t.id = id → w.pending.find? id = some t.serial := by
    rintro t ht rfl
    exact h t ht
  have hdistinct := hs.distinct
  generalize w.timers = l at hsame hdistinct
  induction l with
  | nil => simp
  | cons t rest ih =>
    have hrest := ih (fun u hu => hsame u (List.mem_cons_of_mem _ hu))
      (List.nodup_cons.1 hdistinct).2
    by_cases ht : t.id = id
    · -- another one of the integration would have the same number
      have hzero : rest.countP (·.id == id) = 0 := by
        rw [List.countP_eq_zero]
        intro u hu huid
        have hu' := hsame u (List.mem_cons_of_mem _ hu) (by simpa using huid)
        have ht' := hsame t List.mem_cons_self ht
        have hser : u.serial = t.serial := by simpa [hu'] using ht'
        exact (List.nodup_cons.1 hdistinct).1 (List.mem_map.2 ⟨u, hu, hser⟩)
      simp [ht, hzero]
    · simpa [List.countP_cons, ht] using hrest

end TimersRecorded

lemma oneTimerEach_iff (h : w.TimersSound serials) : w.OneTimerEach ↔ w.TimersRecorded :=
  ⟨fun h => h.2, fun hr => ⟨hr.countP_le_one h, hr⟩⟩

end Worker

namespace Workplace

variable {p p' : Workplace} {e : Event}

/-- The numbers of timers are in order. -/
def TimersSound (p : Workplace) : Prop := p.worker.TimersSound p.site.serials

lemma timersSound_start (config : ControllerConfig) (registry : Registry) (site : Site) :
    (start config registry site).TimersSound := by
  obtain ⟨records, hscan, -⟩ := Worker.scan_eq { config, registry } site
  rw [start, TimersSound]
  rw [hscan]
  exact (Worker.timersSound_start config registry site.serials).congr rfl rfl (Nat.le_refl _)

/-- A step keeps the numbers of timers in order. -/
theorem TimersSound.step (h : p.TimersSound) (hs : p.step e = some p') : p'.TimersSound := by
  cases stepped_of_step hs with
  | @concluded a o environment ha hf r store hr =>
    obtain ⟨failures, htally⟩ := Worker.tally_eq { p.worker with attempt := none } a.id r
    refine Worker.TimersSound.arm ?_ a.id
    rw [htally]
    exact h.congr rfl rfl (Nat.le_refl _)
  | @checked id trigger rest w idle hq hc =>
    have hrest : { p.worker with queue := rest }.TimersSound p.site.serials :=
      h.congr rfl rfl (Nat.le_refl _)
    exact (hrest.noteFired id trigger).congr hc.timers hc.pending (Nat.le_refl _)
  | begun idle hq hb =>
    cases hb with
    | unread hf =>
      refine Worker.TimersSound.arm ?_ _
      exact h.congr rfl rfl (Nat.le_refl _)
    | gone hi => exact h.congr rfl rfl (Nat.le_refl _)
    | unwanted hi hd => exact h.congr rfl rfl (Nat.le_refl _)
    | stale hi hd hs => exact h.congr rfl rfl (Nat.le_refl _)
    | called hi hd hc hh hcall hrun => exact h.congr rfl rfl (Nat.le_succ _)
  | answered idle hq => exact h.congr rfl rfl (Nat.le_refl _)
  | fired ht => exact Worker.TimersSound.fire h _
  | told hc => exact h.congr rfl rfl (Nat.le_refl _)
  | written wr =>
    rw [TimersSound, write]
    split
    split <;> exact h.congr rfl rfl (Nat.le_refl _)
  | failing call times => exact h.congr rfl rfl (Nat.le_refl _)
  | drifted environment clock moment => exact h.congr rfl rfl (Nat.le_refl _)

/-- The follow-up check that is next is about an integration with a live timer. -/
def ForgetsTimer (p : Workplace) (e : Event) : Prop :=
  e = .work ∧ p.worker.attempt = none ∧
    ∃ id rest, p.worker.queue = .check id .followUp :: rest ∧ ∃ t ∈ p.worker.timers, t.id = id

/-- Timers stay recorded as long as no live one is forgotten. -/
lemma timersRecorded_step (h : p.worker.TimersRecorded) (hs : p.step e = some p')
    (hf : ¬ p.ForgetsTimer e) : p'.worker.TimersRecorded := by
  cases stepped_of_step hs with
  | @concluded a o environment ha hfin r store hr =>
    obtain ⟨failures, htally⟩ := Worker.tally_eq { p.worker with attempt := none } a.id r
    refine Worker.TimersRecorded.arm ?_ _ a.id
    rw [htally]
    exact h.congr rfl rfl
  | @checked id trigger rest w idle hq hc =>
    refine Worker.TimersRecorded.congr ?_ hc.timers hc.pending
    rw [Worker.noteFired]
    split
    · next ht =>
      -- the record that is dropped is the one of no live timer
      intro t hmem
      have hne : t.id ≠ id := fun hid =>
        hf ⟨rfl, idle, id, rest, by rw [hq, ht], t, hmem, hid⟩
      simpa [Dict.find?_erase_of_ne _ hne] using h t hmem
    · exact h.congr rfl rfl
  | begun idle hq hb =>
    cases hb with
    | unread hfault =>
      refine Worker.TimersRecorded.arm ?_ _ _
      exact h.congr rfl rfl
    | gone hi => exact h.congr rfl rfl
    | unwanted hi hd => exact h.congr rfl rfl
    | stale hi hd hs => exact h.congr rfl rfl
    | called hi hd hc hh hcall hrun => exact h.congr rfl rfl
  | answered idle hq => exact h.congr rfl rfl
  | fired ht => exact Worker.TimersRecorded.fire h _
  | told hc => exact h.congr rfl rfl
  | written wr =>
    rw [worker_write]
    split
    · exact h.congr rfl rfl
    · exact h
  | failing call times => exact h.congr rfl rfl
  | drifted environment clock moment => exact h.congr rfl rfl

/-- A follow-up check leaves the live timer of its integration without a record. -/
lemma ForgetsTimer.step (hf : p.ForgetsTimer e) (alive : p.worker.alive = true) :
    ∃ p', p.step e = some p' ∧ ¬ p'.worker.TimersRecorded := by
  obtain ⟨rfl, idle, id, rest, hq, t, hmem, rfl⟩ := hf
  obtain ⟨w, hc, hstep⟩ := exists_step_check alive idle hq
  refine ⟨_, hstep, fun hrec => ?_⟩
  have hmem' : t ∈ w.timers := by
    rw [hc.timers]
    exact hmem
  have hfound := hrec t hmem'
  rw [hc.pending] at hfound
  simp [Worker.noteFired] at hfound

/-- In a run there is a second live timer for an integration, or a live timer that is not recorded,
exactly if a follow-up check is carried out while its integration has a live timer. -/
theorem timers_unrecorded_iff (config : ControllerConfig) (registry : Registry) (site : Site)
    (es : List Event) :
    (∃ p, (start config registry site).Visits es p ∧ ¬ p.worker.OneTimerEach) ↔
      ∃ p e, (start config registry site).Takes es p e ∧ p.ForgetsTimer e := by
  have hkeeps : ∀ e ∈ es, ∀ q q' : Workplace, q.TimersSound → q.step e = some q' →
      q'.TimersSound := fun _ _ _ _ hq hs => hq.step hs
  have hsound := timersSound_start config registry site
  constructor
  · rintro ⟨p, hp, hbad⟩
    have hpsound : p.TimersSound := visits_invariant hsound hkeeps hp
    have hstart : (start config registry site).worker.TimersRecorded := by
      obtain ⟨records, hscan, -⟩ := Worker.scan_eq { config, registry } site
      intro t ht
      simp [start, of, hscan] at ht
    exact exists_slip (fun q => q.worker.TimersRecorded) ForgetsTimer hsound hstart hkeeps
      (fun e _ q q' _ hgood hs hf => timersRecorded_step hgood hs hf) hp
      (fun hrec => hbad ((Worker.oneTimerEach_iff hpsound).2 hrec))
  · rintro ⟨p, e, htakes, hf⟩
    have alive : p.worker.alive = true := htakes.visits.alive (alive_start config registry site)
    obtain ⟨p', hs, hbad⟩ := hf.step alive
    exact ⟨p', htakes.visits_step hs, fun hone => hbad hone.2⟩

/-! ## A second timer -/

/-- A handler that has nothing to report. -/
def quietHandler : Handler := .scripted 0 "quiet" [.active] []

/-- The registry of that handler. -/
def quietRegistry : Registry := ⟨[(.active, quietHandler)]⟩

/-- A record that never comes to be as wanted under that registry. -/
def draftedRecord : Integration where
  id := "x"
  name := "Orders Sync"
  desired := some .active
  current := some .draft
  createdAt :=
    ((Date.ofNumbers? 2024 1 2).bind fun date => Timestamp.ofNumbers? date 12 0 0 0).get
      (by decide)

/-- A site whose store holds that record only. -/
def draftedSite : Site where
  store := { records := Dict.empty.insert "x" draftedRecord }
  clock := draftedRecord.createdAt

/-- The first dispatch arms timer 1.  A dispatch is queued by request, timer 1 fires, the dispatch
arms timer 3, the follow-up check forgets it, and the dispatch of that check arms timer 5. -/
def doubling : List Event :=
  [.work, .work, .work, .request "x", .work, .fire 1, .work, .work, .work, .work, .work]

/-- An integration comes to have two live timers. -/
theorem two_timers : ∃ p, (start {} quietRegistry draftedSite).run doubling = some p ∧
    p.worker.timers.countP (·.id == "x") = 2 ∧ ¬ p.worker.OneTimerEach := by
  have hrun : ((start {} quietRegistry draftedSite).run doubling).any
      (fun p => p.worker.timers.countP (·.id == "x") == 2) = true := by decide +kernel
  obtain ⟨p, hp, htwo⟩ := (Option.any_eq_true _ _).1 hrun
  have htwo : p.worker.timers.countP (·.id == "x") = 2 := by simpa using htwo
  refine ⟨p, hp, htwo, fun hone => ?_⟩
  have hle := hone.1 "x"
  omega

end Workplace

end Convergence
