import Mathlib.Tactic.ByContra
import Convergence.Proofs.Backend.Provisioner
import Convergence.Proofs.Worker.Dispatch
import Convergence.Reconcile.Activation
/-!
# When activation reports an integration as active

An attempt with a usable token reports an integration as active only after it asked whether the
deployment is scaled, as the last thing, and the answer was yes (`Confirmed`).  An attempt without a
usable token asks nothing, and reports the state that the revision has reached.  That is not the
state of the integration: a revision stays active when its integration is stopped.

The main results are

* `attempt_of_hasToken`: what an attempt with a usable token reports;
* `active_unconfirmed_iff`: a dispatch makes a record active without confirmation exactly if the
  record has no usable token and the revision to act on is active;
* `not_forall_confirmed`: this happens.
-/

namespace Convergence

/-- There is a token, and it is accepted at this time. -/
def Integration.HasToken (i : Integration) (now : Timestamp) : Prop :=
  ∃ token, i.token = some token ∧ token.isExpired now = false

namespace Activation

variable {generate : Project.Generator} {c : Call} {d : Descriptor} {p p' : Progress}

/-- Between the two moments the provisioner was asked once whether a deployment is scaled.  That was
the last question, it was about this version of the integration, and the answer was yes. -/
structure Confirmed (i : Integration) (version : Version) (before after : Provisioner) : Prop where
  asked : after.calls .isScaled = before.calls .isScaled + 1
  answered : ∃ (q : Provisioner) (d : Descriptor), d.name = resourceName i ∧
    d.revision = version ∧ d.replicas = 1 ∧ q.isScaled d = (.ok true, after)
  deployed : ∃ m, after.deployment? (resourceName i) = some m ∧ m.revision = version ∧
    m.replicas = 1 ∧ m.readyReplicas = 1

@[simp] lemma descriptor_name (c : Call) (token secret : String) :
    (descriptor c token secret).name = resourceName c.integration := by
  simp only [descriptor]

@[simp] lemma descriptor_revision (c : Call) (token secret : String) :
    (descriptor c token secret).revision = c.integration.versionFor c.revision := by
  simp only [descriptor]

/-! ## The steps of an attempt -/

/-- No setup step asks whether the deployment is scaled. -/
lemma calls_setUpRepository (generate : Project.Generator) (c : Call) (d : Descriptor)
    (p : Progress) : (setUpRepository generate c d p).2.environment.provisioner.calls .isScaled
      = p.environment.provisioner.calls .isScaled := by
  have hcalls := p.environment.provisioner.calls_webhookUrl d (d.webhookSecret.getD "") .isScaled
  rw [setUpRepository]
  split
  · rfl
  split
  · rfl
  split
  · next h => simpa [h] using hcalls
  next h =>
    split <;> simpa [h] using hcalls

lemma calls_setUpDeployment (d : Descriptor) (p : Progress) :
    (setUpDeployment d p).2.environment.provisioner.calls .isScaled
      = p.environment.provisioner.calls .isScaled := by
  rw [setUpDeployment]
  split
  · rfl
  split
  · rfl
  next url hurl =>
    have hcalls := p.environment.provisioner.calls_create { d with gitRepository := some url }
      .isScaled
    split <;> next h => simpa [h] using hcalls

/-- An attempt that succeeds has asked whether the deployment is scaled, after everything else. -/
lemma converge_eq_true (h : converge generate c d p = (.ok true, p')) :
    ∃ q : Provisioner, q.calls .isScaled = p.environment.provisioner.calls .isScaled ∧
      q.isScaled d = (.ok true, p'.environment.provisioner) := by
  have hrepository := calls_setUpRepository generate c d p
  rw [converge] at h
  split at h
  · cases h
  next p₁ h₁ =>
    have hdeployment := calls_setUpDeployment d p₁
    split at h
    · cases h
    next p₂ h₂ =>
      split at h
      · cases h
      next scaled q hq =>
        -- the question was put to the provisioner as the setup steps had left it
        cases h
        rw [h₁] at hrepository
        rw [h₂] at hdeployment
        exact ⟨p₂.environment.provisioner, hdeployment.trans hrepository, hq⟩

/-! ## What an attempt reports -/

lemma report_active {result : Except ReconcileError Bool}
    (h : (report c result p).state = .active) : result = .ok true := by
  cases result with
  | error e => cases h
  | ok scaled =>
    cases scaled with
    | true => rfl
    | false => cases h

/-- An attempt without a usable token does nothing, and reports the state of the revision. -/
lemma attempt_of_not_hasToken (generate : Project.Generator) (e : Environment)
    (h : ¬ c.integration.HasToken c.clock) :
    ∃ message, attempt generate c e = (.report (withoutToken c message), e) := by
  rw [attempt]
  split
  · exact ⟨_, rfl⟩
  · next token htoken =>
    split
    · exact ⟨_, rfl⟩
    · next hvalid => exact absurd ⟨token, htoken, by simpa using hvalid⟩ h

/-- An attempt with a usable token reports how the setup steps ended. -/
lemma attempt_of_token {token : Token} (e : Environment) (htoken : c.integration.token = some token)
    (hvalid : token.isExpired c.clock = false) {result : Except ReconcileError Bool}
    (h : converge generate c (descriptor c token.value e.mint.1)
      { environment := e.mint.2, steps := .ofList c.integration.stepsDone } = (result, p')) :
    attempt generate c e = (.report (report c result p'), p'.environment) := by
  rw [attempt]
  simp only [htoken, hvalid, Bool.false_eq_true, if_false]
  rw [h]

/-- An attempt with a usable token reports the integration as active only if that is confirmed. -/
lemma attempt_of_hasToken (generate : Project.Generator) (e : Environment)
    (h : c.integration.HasToken c.clock) :
    ∃ u e', attempt generate c e = (.report u, e') ∧
      (u.state = .active → Confirmed c.integration (c.integration.versionFor c.revision)
        e.provisioner e'.provisioner) := by
  obtain ⟨token, htoken, hvalid⟩ := h
  cases hconverge : converge generate c (descriptor c token.value e.mint.1)
      { environment := e.mint.2, steps := .ofList c.integration.stepsDone } with
  | mk result p' =>
    refine ⟨_, _, attempt_of_token e htoken hvalid hconverge, fun hactive => ?_⟩
    obtain rfl := report_active hactive
    obtain ⟨q, hcalls, hq⟩ := converge_eq_true hconverge
    obtain ⟨m, hm, hrevision, hreplicas, hready⟩ := Provisioner.deployment_of_isScaled hq
    have hasked := q.calls_isScaled (descriptor c token.value e.mint.1) .isScaled
    rw [hq, hcalls] at hasked
    rw [descriptor_name] at hm
    rw [descriptor_revision] at hrevision
    exact ⟨hasked, ⟨q, _, descriptor_name .., descriptor_revision .., rfl, hq⟩, m, hm, hrevision,
      hreplicas, hready⟩

end Activation

namespace Worker

open Activation (Confirmed)

variable {generate : Project.Generator} {w : Worker} {site : Site} {id : IntegrationId}
  {meanwhile : Site → Site} {i : Integration}

/-- The activation is called for records that are to be active. -/
lemma calls_activate_iff (generate : Project.Generator) {d : State}
    (hi : site.store.record? id = some i) (hcurrent : i.current ≠ some .active) :
    Calls site.store id (.activate generate) i d ↔ i.desired = some .active ∧ d = .active := by
  constructor
  · intro h
    have hd : d = .active := by simpa [Handler.handles, Handler.activate] using h.handles
    exact ⟨hd ▸ h.desired, hd⟩
  · rintro ⟨hdesired, rfl⟩
    refine ⟨hi, hdesired, ?_, by simp [Handler.handles, Handler.activate]⟩
    cases hc : i.current with
    | none => simp [Integration.isConverged, hc, hdesired]
    | some s =>
      have hne : s ≠ .active := fun heq => hcurrent (heq ▸ hc)
      cases s <;> simp_all [Integration.isConverged, State.satisfies]

/-- A report of an attempt without a usable token can be taken over. -/
lemma applyUpdate_withoutToken (i : Integration) (c : Call) (message : String) (now : Timestamp) :
    ∃ j, i.applyUpdate (Activation.withoutToken c message) now = .ok j ∧
      j.current = some c.revision.currentState :=
  ⟨_, rfl, rfl⟩

/-- How a dispatch of the activation goes if it calls the handler. -/
lemma dispatch_activate (generate : Project.Generator) (w : Worker) (meanwhile : Site → Site)
    (hf : site.store.faults .fetch = 0)
    (hi : site.store.record? id = some i) (hcurrent : i.current ≠ some .active)
    (hdesired : i.desired = some .active) :
    (w.begin site id (.activate generate)).2 = { site with serials := site.serials + 1 } ∧
      ∀ s o ended, meanwhile { site with serials := site.serials + 1 } = s →
        Activation.attempt generate (callOf site (.activate generate) i) s.environment
            = (o, ended) →
        (w.dispatch site id (.activate generate) meanwhile).2.store
            = (settle s.store s.clock id o).2 ∧
          (w.dispatch site id (.activate generate) meanwhile).2.environment = ended := by
  have hcalls := (calls_activate_iff generate hi hcurrent).2 ⟨hdesired, rfl⟩
  refine ⟨?_, fun s o ended hs ho => dispatch_of_calls w hf hcalls rfl hs ho⟩
  rw [begin_of_calls w hf hcalls rfl]

section Unconfirmed

variable (generate : Project.Generator) (idle : w.attempt = none) (hk : site.store.Keyed)
  (hf : site.store.faults .fetch = 0) (hi : site.store.record? id = some i)
  (hcurrent : i.current ≠ some .active) (hm : Undisturbed id meanwhile)

include idle hi hcurrent in
/-- A record that is not to be active is left alone. -/
lemma record?_dispatch_activate (hdesired : i.desired ≠ some .active) :
    (w.dispatch site id (.activate generate) meanwhile).2.store.record? id = some i := by
  have hno : ∀ i' d, ¬ Calls site.store id (.activate generate) i' d := by
    intro i' d hcalls
    obtain rfl : i = i' := by simpa [hi] using hcalls.record
    exact hdesired ((calls_activate_iff generate hi hcurrent).1 hcalls).1
  obtain ⟨hrecords, -⟩ := dispatch_refused meanwhile idle (Or.inr hno)
  simpa [Store.record?, hrecords] using hi

include hk hf hi hcurrent hm in
/-- With a usable token, a record that comes to be active is confirmed. -/
lemma confirmed_of_hasToken (hdesired : i.desired = some .active) (htoken : i.HasToken site.clock)
    {j : Integration}
    (hj : (w.dispatch site id (.activate generate) meanwhile).2.store.record? id = some j)
    (hactive : j.current = some .active) :
    Confirmed i (i.versionFor i.targetRevision)
      (meanwhile (w.begin site id (.activate generate)).2).environment.provisioner
      (w.dispatch site id (.activate generate) meanwhile).2.environment.provisioner := by
  obtain ⟨hbegin, hend⟩ :=
    dispatch_activate generate w meanwhile hf hi hcurrent hdesired
  rw [hbegin]
  have hrecord := (hm.record { site with serials := site.serials + 1 }).trans hi
  have hkeyed := hm.keyed { site with serials := site.serials + 1 } hk
  generalize hs : meanwhile { site with serials := site.serials + 1 } = s at hrecord hkeyed ⊢
  obtain ⟨u, ended, ho, hconfirmed⟩ := Activation.attempt_of_hasToken
    (c := callOf site (.activate generate) i) generate s.environment htoken
  obtain ⟨hstore, hended⟩ := hend s _ ended hs ho
  rw [hstore] at hj
  rw [hended]
  -- the state is the one before, or the one reported
  rcases current_of_settle hkeyed hrecord hj with hsame | ⟨u', hu', hstate⟩
  · exact absurd (hsame ▸ hactive) hcurrent
  · obtain rfl : u = u' := by simpa using hu'
    exact hconfirmed (by simpa [hactive] using hstate.symm)

include hk hf hi hcurrent hm in
/-- Without a usable token the backends are left alone, and the record comes to be in the state of
the revision. -/
lemma dispatch_of_not_hasToken (hu : site.store.faults .update = 0)
    (hdesired : i.desired = some .active) (htoken : ¬ i.HasToken site.clock) :
    (∃ j, (w.dispatch site id (.activate generate) meanwhile).2.store.record? id = some j ∧
        j.current = some i.targetRevision.currentState) ∧
      (w.dispatch site id (.activate generate) meanwhile).2.environment
        = (meanwhile (w.begin site id (.activate generate)).2).environment := by
  obtain ⟨hbegin, hend⟩ :=
    dispatch_activate generate w meanwhile hf hi hcurrent hdesired
  rw [hbegin]
  have hrecord := (hm.record { site with serials := site.serials + 1 }).trans hi
  have hfetch : (meanwhile _).store.faults .fetch = 0 :=
    Nat.le_zero.1 (hf ▸ hm.faults { site with serials := site.serials + 1 } .fetch)
  have hupdate : (meanwhile _).store.faults .update = 0 :=
    Nat.le_zero.1 (hu ▸ hm.faults { site with serials := site.serials + 1 } .update)
  generalize hs : meanwhile { site with serials := site.serials + 1 } = s
    at hrecord hfetch hupdate ⊢
  obtain ⟨message, ho⟩ := Activation.attempt_of_not_hasToken
    (c := callOf site (.activate generate) i) generate s.environment htoken
  obtain ⟨hstore, hended⟩ := hend s _ _ hs ho
  obtain ⟨j, hj, hstate⟩ := applyUpdate_withoutToken i (callOf site (.activate generate) i) message
    s.clock
  rw [hstore]
  exact ⟨⟨j, settle_of_applyUpdate hfetch hupdate hrecord (hk id i hi) hj, hstate⟩, hended⟩

end Unconfirmed

/-- Without other writers, a dispatch of the activation makes a record active though nobody
confirmed that its deployment is scaled, exactly if the record is to be active, it has no usable
token, and the revision to act on is active. -/
theorem active_unconfirmed_iff (generate : Project.Generator) {w : Worker}
    (idle : w.attempt = none) {site : Site} (hk : site.store.Keyed)
    (hf : site.store.faults .fetch = 0) (hu : site.store.faults .update = 0) {id : IntegrationId}
    {i : Integration} (hi : site.store.record? id = some i) (hcurrent : i.current ≠ some .active)
    {meanwhile : Site → Site} (hm : Undisturbed id meanwhile) :
    ((∃ j, (w.dispatch site id (.activate generate) meanwhile).2.store.record? id = some j ∧
          j.current = some .active) ∧
        ¬ Confirmed i (i.versionFor i.targetRevision)
          (meanwhile (w.begin site id (.activate generate)).2).environment.provisioner
          (w.dispatch site id (.activate generate) meanwhile).2.environment.provisioner) ↔
      i.desired = some .active ∧ ¬ i.HasToken site.clock ∧
        i.targetRevision.currentState = .active := by
  constructor
  · rintro ⟨⟨j, hj, hactive⟩, hunconfirmed⟩
    have hdesired : i.desired = some .active := by
      by_contra hne
      rw [record?_dispatch_activate generate idle hi hcurrent hne] at hj
      obtain rfl : i = j := by simpa using hj
      exact hcurrent hactive
    have htoken : ¬ i.HasToken site.clock := fun htoken =>
      hunconfirmed (confirmed_of_hasToken generate hk hf hi hcurrent hm hdesired htoken hj hactive)
    obtain ⟨⟨k, hk', hstate⟩, -⟩ :=
      dispatch_of_not_hasToken (w := w) generate hk hf hi hcurrent hm hu hdesired htoken
    obtain rfl : j = k := by simpa [hj] using hk'
    exact ⟨hdesired, htoken, by simpa [hactive] using hstate.symm⟩
  · rintro ⟨hdesired, htoken, hrevision⟩
    obtain ⟨⟨j, hj, hstate⟩, hsame⟩ :=
      dispatch_of_not_hasToken (w := w) generate hk hf hi hcurrent hm hu hdesired htoken
    refine ⟨⟨j, hj, by rw [hstate, hrevision]⟩, fun hconfirmed => ?_⟩
    -- nobody asked
    have hasked := hconfirmed.asked
    rw [hsame] at hasked
    omega

/-! ## A record that is active without a deployment -/

/-- A record that was stopped, and is to run again.  It has no token. -/
def stoppedRecord : Integration where
  id := "x"
  name := "Orders Sync"
  desired := some .active
  current := some .undeployed
  revisions := [{ version := some 1, currentState := .active, targetState := .active }]
  deployed := some 1
  createdAt :=
    ((Date.ofNumbers? 2024 1 3).bind fun date => Timestamp.ofNumbers? date 12 0 0 0).get
      (by decide)

/-- A site whose store holds that record only, with empty backends. -/
def stoppedSite : Site where
  store := { records := Dict.empty.insert "x" stoppedRecord }
  clock := stoppedRecord.createdAt

lemma undisturbed_id (id : IntegrationId) : Undisturbed id fun s => s :=
  ⟨fun _ => rfl, fun _ h => h, fun _ _ => Nat.le_refl _⟩

/-- Its dispatch makes the record active, and nobody confirmed that. -/
theorem stopped_active_unconfirmed :
    (∃ j, (({} : Worker).dispatch stoppedSite "x" (.activate Project.generator)
        fun s => s).2.store.record? "x" = some j ∧ j.current = some .active) ∧
      ¬ Confirmed stoppedRecord (stoppedRecord.versionFor stoppedRecord.targetRevision)
        (({} : Worker).begin stoppedSite "x"
          (.activate Project.generator)).2.environment.provisioner
        (({} : Worker).dispatch stoppedSite "x" (.activate Project.generator)
          fun s => s).2.environment.provisioner :=
  (active_unconfirmed_iff Project.generator rfl (Store.keyed_singleton stoppedRecord) rfl rfl
    (by decide) (by decide) (undisturbed_id "x")).2
    ⟨rfl, by simp [Integration.HasToken, stoppedRecord], rfl⟩

/-- It is not so that a dispatch makes a record active only if that is confirmed. -/
theorem not_forall_confirmed : ¬ ∀ (generate : Project.Generator) (w : Worker) (site : Site)
    (id : IntegrationId) (i j : Integration) (meanwhile : Site → Site),
    w.attempt = none → site.store.Keyed → (∀ call, site.store.faults call = 0) →
    site.store.record? id = some i → i.current ≠ some .active → Undisturbed id meanwhile →
    (w.dispatch site id (.activate generate) meanwhile).2.store.record? id = some j →
    j.current = some .active →
    Confirmed i (i.versionFor i.targetRevision)
      (meanwhile (w.begin site id (.activate generate)).2).environment.provisioner
      (w.dispatch site id (.activate generate) meanwhile).2.environment.provisioner := by
  intro hall
  have hi : stoppedSite.store.record? "x" = some stoppedRecord := by decide
  have hcurrent : stoppedRecord.current ≠ some .active := by decide
  have hm := undisturbed_id "x"
  have hk : stoppedSite.store.Keyed := Store.keyed_singleton stoppedRecord
  obtain ⟨⟨j, hj, hstate⟩, hsame⟩ := dispatch_of_not_hasToken (w := {}) Project.generator hk rfl hi
    hcurrent hm rfl rfl (by simp [Integration.HasToken, stoppedRecord])
  have hconfirmed := hall Project.generator {} stoppedSite "x" stoppedRecord j (fun s => s) rfl hk
    (fun _ => rfl) hi hcurrent hm hj hstate
  have hasked := hconfirmed.asked
  rw [hsame] at hasked
  omega

end Worker

end Convergence
