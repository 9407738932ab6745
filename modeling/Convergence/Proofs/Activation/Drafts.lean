import Convergence.Proofs.Activation.Runs
/-!
# Drafts that are saved during an attempt

An attempt acts on the draft that the record had when it began.  What it reports is written into the
record as it is when the attempt ends, and a promotion leaves no draft there, also if another client
has saved a new one in between.

The main results are

* `draft_dispatch`: a draft that is saved during an attempt stays, unless the attempt promotes the
  revision that it began with, and the record takes that over; then there is no draft;
* `not_forall_keeps_draft`: what is promoted need not be what the draft was.
-/

namespace Convergence

/-- A report that is taken over leaves no draft if it promotes a revision, and else the draft that
is there. -/
lemma Integration.draft_applyUpdate {i j : Integration} {u : StatusUpdate} {now : Timestamp}
    (h : i.applyUpdate u now = .ok j) :
    (u.promoted = none ∧ j.draft = i.draft) ∨
      ∃ r k v, u.promoted = some r ∧ i.promote r = .ok (k, v) ∧ j.draft = none := by
  obtain ⟨k, ⟨hnone, rfl⟩ | ⟨r, v, hr, hp⟩, rfl⟩ := applyUpdate_eq_ok h
  · exact Or.inl ⟨hnone, rfl⟩
  · obtain ⟨-, history, -, rfl⟩ := promote_eq_ok hp
    exact Or.inr ⟨r, _, v, hr, hp, rfl⟩

namespace Worker

variable {generate : Project.Generator} {w : Worker} {site s : Site} {id : IntegrationId}
  {meanwhile : Site → Site} {i found : Integration}

/-- The end of a dispatch leaves the draft that it finds, unless a promotion is taken over. -/
lemma draft_of_settle {store : Store} {clock : Timestamp} (hk : store.Keyed)
    (hfound : store.record? id = some found) {u : StatusUpdate} {j : Integration}
    (hj : (settle store clock id (.report u)).2.record? id = some j) :
    j.draft = found.draft ∨
      (j.draft = none ∧ ∃ r x, u.promoted = some r ∧ found.promote r = .ok x) := by
  rcases record?_settle hk hfound hj with rfl | ⟨u', ho, happly⟩ | ⟨message, rfl⟩
  · exact Or.inl rfl
  · cases ho
    rcases Integration.draft_applyUpdate happly with ⟨-, hsame⟩ | ⟨r, k, v, hr, hpromote, hnone⟩
    · exact Or.inl hsame
    · exact Or.inr ⟨hnone, r, _, hr, hpromote⟩
  · exact Or.inl rfl

/-- If the calls of the store go through, a promotion that the record accepts leaves no draft. -/
lemma draft_of_promotion {store : Store} {clock : Timestamp} (hk : store.Keyed)
    (hf : store.faults .fetch = 0) (hu : store.faults .update = 0)
    (hfound : store.record? id = some found) {u : StatusUpdate} {j : Integration}
    (hj : (settle store clock id (.report u)).2.record? id = some j) {r : Revision}
    {x : Integration × Version} (hr : u.promoted = some r) (hpromote : found.promote r = .ok x) :
    j.draft = none := by
  cases happly : found.applyUpdate u clock with
  | error e => simp [Integration.applyUpdate_eq, hr, hpromote, Except.map] at happly
  | ok k =>
    have hk' := settle_of_applyUpdate hf hu hfound (hk id found hfound) happly
    obtain rfl : k = j := Option.some.inj (hk'.symm.trans hj)
    rcases Integration.draft_applyUpdate happly with ⟨hnone, -⟩ | ⟨_, _, _, _, _, hnone⟩
    · rw [hr] at hnone
      cases hnone
    · exact hnone

/-- **What becomes of a draft that is saved during an attempt.**  While the attempt runs, other
clients may do anything to the record; when it ends they have left a draft there.  After the
dispatch that draft is still there, unless the attempt promotes the revision that it began with and
the record takes that over.  Then there is no draft; and if the calls of the store go through, a
promotion that the record accepts always leaves none. -/
theorem draft_dispatch (generate : Project.Generator) (w : Worker)
    (hf : site.store.faults .fetch = 0)
    (hcalls : Calls site.store id (.activate generate) i .active)
    (hs : meanwhile { site with serials := site.serials + 1 } = s) (hk : s.store.Keyed)
    (hfound : s.store.record? id = some found) {d : Revision} (hd : found.draft = some d) :
    ∃ u j, (Activation.attempt generate (callOf site (.activate generate) i) s.environment).1
        = .report u ∧
      (w.dispatch site id (.activate generate) meanwhile).2.store.record? id = some j ∧
      (j.draft = some d ∨ (j.draft = none ∧ ∃ r x, u.promoted = some r ∧
        r.spec = i.targetRevision.spec ∧ found.promote r = .ok x)) ∧
      (s.store.faults .fetch = 0 → s.store.faults .update = 0 → ∀ r x, u.promoted = some r →
        found.promote r = .ok x → j.draft = none) := by
  obtain ⟨u, ho, hattempt⟩ := Activation.attempted generate
    (callOf site (.activate generate) i) s.environment
  obtain ⟨hstore, -⟩ := dispatch_of_calls w hf hcalls rfl hs (Prod.ext ho rfl :
    Activation.attempt generate (callOf site (.activate generate) i) s.environment
      = (.report u, _))
  obtain ⟨j, hj, -⟩ := (amends_settle hk s.clock id (.report u)).own found hfound
  refine ⟨u, j, ho, by rw [hstore]; exact hj, ?_, ?_⟩
  · rw [← hd]
    refine (draft_of_settle hk hfound hj).imp_right ?_
    rintro ⟨hnone, r, x, hr, hpromote⟩
    exact ⟨hnone, r, x, hr, (hattempt.of_promoted hr).1, hpromote⟩
  · intro hfetch hupdate r x hr hpromote
    exact draft_of_promotion hk hfetch hupdate hfound hj hr hpromote

/-! ## A draft that is dropped -/

/-- A site whose deployments are ready at once, and whose store holds one record with a draft. -/
def eagerSite : Site :=
  { Course.draftCourse.site with environment := { provisioner := { autoReady := true } } }

/-- The record with another draft. -/
def redraftedRecord : Integration :=
  { Course.draftRecord with draft := some Course.secondDraft }

/-- Another client saves the other draft. -/
def redraft (s : Site) : Site :=
  { s with store := Write.runAll s.store [.update redraftedRecord] }

/-- The site when the attempt ends. -/
def redraftedSite : Site := redraft { eagerSite with serials := eagerSite.serials + 1 }

lemma calls_eagerSite :
    Calls eagerSite.store "x" (.activate Project.generator) Course.draftRecord .active :=
  ⟨rfl, rfl, rfl, rfl⟩

lemma keyed_redraftedSite : redraftedSite.store.Keyed :=
  Write.keyed_runAll _ (Store.keyed_singleton Course.draftRecord)

/-- The attempt promotes the first draft, and the record with the other draft takes that over. -/
lemma promotes_firstDraft : ∃ u r x,
    (Activation.attempt Project.generator
      (callOf eagerSite (.activate Project.generator) Course.draftRecord)
      redraftedSite.environment).1 = .report u ∧
    u.promoted = some r ∧ r.spec = Course.firstDraft.spec ∧ redraftedRecord.promote r = .ok x := by
  have hpromotes : (match (Activation.attempt Project.generator
      (callOf eagerSite (.activate Project.generator) Course.draftRecord)
      redraftedSite.environment).1 with
    | .report u => u.promoted.any fun r =>
        r.spec == Course.firstDraft.spec && (redraftedRecord.promote r).isOk
    | _ => false) = true := by decide +kernel
  split at hpromotes
  · next u ho =>
    obtain ⟨r, hr, hboth⟩ := (Option.any_eq_true _ _).1 hpromotes
    simp only [Bool.and_eq_true, beq_iff_eq] at hboth
    cases hpromote : redraftedRecord.promote r with
    | error e => simp [hpromote, Except.isOk, Except.toBool] at hboth
    | ok x => exact ⟨u, r, x, ho, hr, hboth.1, hpromote⟩
  · cases hpromotes

/-- The other draft is gone after the dispatch. -/
theorem redraft_dropped : ∃ j, (({} : Worker).dispatch eagerSite "x" (.activate Project.generator)
      redraft).2.store.record? "x" = some j ∧ j.draft = none := by
  have hfound : redraftedSite.store.record? "x" = some redraftedRecord := by decide
  obtain ⟨u, j, ho, hj, -, hpromotion⟩ := draft_dispatch Project.generator {} rfl calls_eagerSite
    (rfl : redraft _ = redraftedSite) keyed_redraftedSite hfound rfl
  obtain ⟨u', r, x, ho', hr, -, hpromote⟩ := promotes_firstDraft
  obtain rfl : u = u' := by simpa using ho.symm.trans ho'
  exact ⟨j, hj, hpromotion rfl rfl r x hr hpromote⟩

/-- It is not so that a draft is only dropped by promoting it. -/
theorem not_forall_keeps_draft : ¬ ∀ (generate : Project.Generator) (w : Worker) (site s : Site)
    (id : IntegrationId) (meanwhile : Site → Site) (i found j : Integration) (u : StatusUpdate)
    (d : Revision), w.attempt = none → (∀ call, site.store.faults call = 0) →
    Calls site.store id (.activate generate) i .active →
    meanwhile { site with serials := site.serials + 1 } = s → s.store.Keyed →
    (∀ call, s.store.faults call = 0) → s.store.record? id = some found → found.draft = some d →
    (Activation.attempt generate (callOf site (.activate generate) i) s.environment).1
      = .report u →
    (w.dispatch site id (.activate generate) meanwhile).2.store.record? id = some j →
    j.draft = some d ∨ ∃ r, u.promoted = some r ∧ r.spec = d.spec := by
  intro hall
  have hfound : redraftedSite.store.record? "x" = some redraftedRecord := by decide
  have hgone : ((({} : Worker).dispatch eagerSite "x" (.activate Project.generator)
      redraft).2.store.record? "x").any (fun j => j.draft == none) = true := by decide +kernel
  obtain ⟨j, hj, hnone⟩ := (Option.any_eq_true _ _).1 hgone
  have hnone : j.draft = none := by simpa using hnone
  obtain ⟨u, r, x, ho, hr, hspec, hpromote⟩ := promotes_firstDraft
  rcases hall Project.generator {} eagerSite redraftedSite "x" redraft Course.draftRecord
    redraftedRecord j u Course.secondDraft rfl (fun _ => rfl) calls_eagerSite rfl
    keyed_redraftedSite (fun _ => rfl) hfound rfl ho hj with hkept | ⟨r', hr', hsame⟩
  · rw [hnone] at hkept
    cases hkept
  · obtain rfl : r = r' := Option.some.inj (hr.symm.trans hr')
    exact Course.firstDraft_ne_secondDraft (hspec.symm.trans hsame)

end Worker

end Convergence
