import Mathlib.Data.List.Nodup
import Convergence.Proofs.Worker.Timers
/-!
# What is still to come for an integration

Something is still to come for an integration if a timer of it runs, if a command about it waits in
the queue, or if its call is under way.  Often only some kind of command counts, so the kind is a
parameter of `Expects`.

A step takes away what is to come only by carrying out the command that is next: `expects_step`
asks what is expected without that command and nothing else.
-/

namespace Convergence

/-- The integration that a command is about. -/
def Command.about : Command → Option IntegrationId
  | .check id _ => some id
  | .dispatch id _ => some id
  | .listMarkers _ => none

namespace Worker

/-- Something is still to come for the integration, if only commands of the kind count. -/
def Expects (w : Worker) (kind : Command → Prop) (id : IntegrationId) : Prop :=
  (∃ t ∈ w.timers, t.id = id) ∨ (∃ c ∈ w.queue, c.about = some id ∧ kind c) ∨
    ∃ a, w.attempt = some a ∧ a.id = id

variable {w w' : Worker} {site : Site} {kind : Command → Prop} {id other : IntegrationId}

namespace Expects

/-- What is still to come may be there afterwards, together with more. -/
lemma of_kept (h : w.Expects kind id) (ht : ∀ t ∈ w.timers, t.id = id → t ∈ w'.timers)
    (hq : ∀ c ∈ w.queue, c ∈ w'.queue)
    (ha : ∀ a, w.attempt = some a → w'.attempt = some a) : w'.Expects kind id := by
  rcases h with ⟨t, hmem, hid⟩ | ⟨c, hmem, hc⟩ | ⟨a, hattempt, hid⟩
  · exact Or.inl ⟨t, ht t hmem hid, hid⟩
  · exact Or.inr (Or.inl ⟨c, hq c hmem, hc⟩)
  · exact Or.inr (Or.inr ⟨a, ha a hattempt, hid⟩)

lemma enqueue (h : w.Expects kind id) (c : Command) : (w.enqueue c).Expects kind id :=
  h.of_kept (fun _ ht _ => ht) (fun _ hc => List.mem_append_left _ hc) fun _ ha => ha

lemma of_enqueue {c : Command} (hc : c.about = some id) (hkind : kind c) :
    (w.enqueue c).Expects kind id :=
  Or.inr (Or.inl ⟨c, List.mem_append_right _ List.mem_cons_self, hc, hkind⟩)

lemma of_arm (w : Worker) (site : Site) (id : IntegrationId) :
    (w.arm site id).1.Expects kind id :=
  Or.inl ⟨_, TimersSound.mem_timers_arm.2 (Or.inr rfl), rfl⟩

/-- Arming a timer aborts none of another integration. -/
lemma arm (h : w.Expects kind id) {serials : Nat} (hs : w.TimersSound serials)
    (other : IntegrationId) : (w.arm site other).1.Expects kind id := by
  by_cases hid : id = other
  · subst hid
    exact of_arm w site id
  · refine h.of_kept (fun t ht htid => ?_) (fun _ hc => hc) fun _ ha => ha
    refine TimersSound.mem_timers_arm.2 (Or.inl ⟨ht, fun hpending => hid ?_⟩)
    rw [← htid]
    exact (hs.owned other t.serial hpending).2 t ht rfl

/-- A timer that fires is replaced by its check. -/
lemma fire (h : w.Expects kind id) {serials : Nat} (hs : w.TimersSound serials)
    (hkind : kind (.check id .followUp)) {t : Timer} (ht : t ∈ w.timers) :
    (w.fire t).Expects kind id := by
  by_cases hid : t.id = id
  · -- the check that is queued takes the place of the timer
    subst hid
    exact of_enqueue rfl hkind
  · have hkept : { w with timers := w.timers.filter (·.serial ≠ t.serial) }.Expects kind id := by
      refine h.of_kept (fun u hu huid => ?_) (fun _ hc => hc) fun _ ha => ha
      have hne : u.serial ≠ t.serial := fun hserial =>
        hid (List.inj_on_of_nodup_map hs.distinct ht hu hserial.symm ▸ huid)
      exact List.mem_filter.2 ⟨hu, by simpa using hne⟩
    exact hkept.enqueue _

/-- Nothing is lost with a command that is about something else or of another kind. -/
lemma rest (h : w.Expects kind id) {c : Command} {rest : List Command} (hq : w.queue = c :: rest)
    (hc : c.about = some id → ¬ kind c) : { w with queue := rest }.Expects kind id := by
  rcases h with ht | ⟨c', hmem, habout, hkind⟩ | ha
  · exact Or.inl ht
  · rw [hq] at hmem
    rcases List.mem_cons.1 hmem with rfl | hmem
    · exact absurd hkind (hc habout)
    · exact Or.inr (Or.inl ⟨c', hmem, habout, hkind⟩)
  · exact Or.inr (Or.inr ha)

end Expects

lemma Checked.mem_queue {store : Store} {trigger : Trigger} (h : Checked w store id trigger w')
    {c : Command} (hc : c ∈ w.queue) : c ∈ w'.queue := by
  cases h with
  | dispatched => exact List.mem_append_left _ hc
  | _ => exact hc

end Worker

namespace Workplace

open Worker (Expects)

variable {p p' : Workplace} {e : Event} {kind : Command → Prop} {id : IntegrationId}

/-- What is still to come for an integration is still to come after a step, unless it was the
command that is carried out. -/
theorem expects_step (hs : p.step e = some p') (hsound : p.TimersSound)
    (hkind : kind (.check id .followUp)) (h : p.worker.Expects kind id)
    (hnext : ∀ c rest, e = .work → p.worker.attempt = none → p.worker.queue = c :: rest →
      { p.worker with queue := rest }.Expects kind id) : p'.worker.Expects kind id := by
  cases stepped_of_step hs with
  | @concluded a o environment ha hf r store hr =>
    obtain ⟨failures, htally⟩ := Worker.tally_eq { p.worker with attempt := none } a.id r
    change (Worker.arm _ _ a.id).1.Expects kind id
    rw [htally]
    by_cases hid : a.id = id
    · -- the timer that is armed takes the place of the call
      subst hid
      exact .of_arm _ _ _
    · have hmid : { p.worker with attempt := none, failures }.Expects kind id := by
        rcases h with ht | hq | ⟨a', ha', hid'⟩
        · exact Or.inl ht
        · exact Or.inr (Or.inl hq)
        · obtain rfl : a = a' := by simpa [ha] using ha'
          exact absurd hid' hid
      exact hmid.arm (Worker.TimersSound.congr hsound rfl rfl (Nat.le_refl _)) a.id
  | @checked id' trigger rest w idle hq hc =>
    obtain ⟨pending, hnote⟩ := Worker.noteFired_eq { p.worker with queue := rest } id' trigger
    rw [hnote] at hc
    refine (hnext _ rest rfl idle hq).of_kept (fun t ht _ => ?_) (fun c hmem => hc.mem_queue hmem)
      fun a ha => ?_
    · simpa [hc.timers] using ht
    · simpa [hc.attempt] using ha
  | @begun id' handler rest x idle hq hb =>
    have hrest := hnext _ rest rfl idle hq
    have hsound : { p.worker with queue := rest }.TimersSound p.site.serials :=
      Worker.TimersSound.congr hsound rfl rfl (Nat.le_refl _)
    cases hb with
    | unread hfault =>
      have hmid : ({ p.worker with queue := rest }.countFailure id').Expects kind id :=
        hrest.of_kept (fun _ ht _ => ht) (fun _ hc => hc) fun _ ha => ha
      exact hmid.arm (hsound.congr rfl rfl (Nat.le_refl _)) id'
    | gone hi => exact hrest
    | unwanted hi hd => exact hrest
    | stale hi hd hs => exact hrest.of_kept (fun _ ht _ => ht) (fun _ hc => hc) fun _ ha => ha
    | called hi hd hc hh hcall hrun =>
      -- the new call takes the place of no other, for the worker was idle
      refine hrest.of_kept (fun _ ht _ => ht) (fun _ hc => hc) fun a ha => ?_
      rw [show p.worker.attempt = some a from ha] at idle
      cases idle
  | answered idle hq =>
    exact (hnext _ _ rfl idle hq).of_kept (fun _ ht _ => ht) (fun _ hc => hc) fun _ ha => ha
  | fired ht => exact h.fire hsound hkind ht
  | told hc => exact h.enqueue _
  | written wr =>
    rw [worker_write]
    split
    · exact h.enqueue _
    · exact h
  | failing call times => exact h
  | drifted environment clock moment => exact h

end Workplace

end Convergence
