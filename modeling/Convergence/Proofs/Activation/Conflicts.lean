import Convergence.Proofs.Activation.Webhooks
/-!
# Deploying a revision that cannot be promoted

A revision that was promoted must not change.  If the revision to bring to life bears the version of
an active one and does something else, the record refuses its promotion.  But that is found out when
the attempt is over, and the attempt does not look: it pushes the project and creates the deployment
like any other.

The main results are

* `push_mem_plan` and `create_mem_plan`: when the setup steps of an attempt take effect;
* `untouched_iff`: a dispatch that is bound to be refused leaves the backends alone exactly if none
  of them does;
* `not_forall_untouched`: it need not.
-/

namespace Convergence

/-! ## When the setup steps take effect -/

namespace Activation

/-- The attempt pushes: the step is not done, there is a project, and no call fails. -/
structure Pushes (generate : Project.Generator) (i : Integration) (r : Revision)
    (e : Environment) : Prop where
  undone : SetupSteps.sourceRepo ∉ i.stepsDone
  generated : ∃ files, generate i r = .ok files
  addressed : (e.provisioner.gate .webhookUrl).fault = none
  accepted : e.sourceControl.gate.fault = none

/-- The attempt creates the deployment: the step is not done, there is a repository to build from,
and the call does not fail. -/
structure Creates (generate : Project.Generator) (i : Integration) (r : Revision)
    (e : Environment) : Prop where
  undone : SetupSteps.provisioning ∉ i.stepsDone
  sources : Pushes generate i r e ∨
    (SetupSteps.sourceRepo ∈ i.stepsDone ∧
      (e.sourceControl.repository? (resourceName i)).isSome)
  accepted : (e.provisioner.gate .create).fault = none

variable {generate : Project.Generator} {c : Call} {d : Descriptor} {n : Notes} {e : Environment}

lemma push_mem_repositoryPlan :
    .push d.name ∈ effects ((repositoryPlan generate c d n).log e) ↔
      SetupSteps.sourceRepo ∉ n.steps.done ∧
        (∃ files, generate c.integration c.revision = .ok files) ∧
        (e.provisioner.gate .webhookUrl).fault = none ∧ e.sourceControl.gate.fault = none := by
  rw [repositoryPlan, ← SetupSteps.isDone_iff]
  cases hdone : n.steps.isDone SetupSteps.sourceRepo
  · cases hfiles : generate c.integration c.revision <;>
      cases haddressed : (e.provisioner.gate .webhookUrl).fault <;>
        cases haccepted : e.sourceControl.gate.fault <;>
          simp [Plan.log, BackendRequest.perform, BackendRequest.granted, Provisioner.webhookUrl,
            Provisioner.enter, SourceControl.push, Gate.enter, haddressed, haccepted, effects,
            Entry.effect?, Except.isOk, Except.toBool]
  · simp [Plan.log]

lemma create_mem_deploymentPlan :
    .create d.name ∈ effects ((deploymentPlan d n).log e) ↔
      SetupSteps.provisioning ∉ n.steps.done ∧ (∃ url, sources d (n.progress e) = .ok url) ∧
        (e.provisioner.gate .create).fault = none := by
  rw [deploymentPlan, ← SetupSteps.isDone_iff]
  cases hdone : n.steps.isDone SetupSteps.provisioning
  · simp only [Bool.false_eq_true, if_false, Plan.log_bind, effects_append, effects_sourcesPlan,
      List.nil_append, sources_eq]
    cases hurl : sources d (n.progress e) <;>
      cases haccepted : (e.provisioner.gate .create).fault <;>
        simp [Plan.log, BackendRequest.perform, BackendRequest.granted, Provisioner.create,
          Provisioner.enter, Gate.enter, haccepted, effects, Entry.effect?, Except.isOk,
          Except.toBool]
  · simp [Plan.log]

/-- The first setup step makes no deployment fail. -/
lemma gate_create_repositoryPlan (generate : Project.Generator) (c : Call) (d : Descriptor)
    (n : Notes) (e : Environment) :
    ((repositoryPlan generate c d n).run e).2.provisioner.gate .create
      = e.provisioner.gate .create := by
  rw [repositoryPlan]
  cases hdone : n.steps.isDone SetupSteps.sourceRepo
  · cases hfiles : generate c.integration c.revision <;>
      cases haddressed : (e.provisioner.gate .webhookUrl).fault <;>
        cases haccepted : e.sourceControl.gate.fault <;>
          simp [Plan.run, BackendRequest.perform, Provisioner.webhookUrl, Provisioner.enter,
            SourceControl.push, Gate.enter, haddressed, haccepted]
  · simp [Plan.run]

/-- The effects of both setup steps and the question are those of the first step, and those of the
second if the first succeeds. -/
lemma mem_effects_convergePlan {x : Effect} :
    x ∈ effects ((convergePlan generate c d n).log e) ↔
      x ∈ effects ((repositoryPlan generate c d n).log e) ∨
        ∃ n₁ e₁, (repositoryPlan generate c d n).run e = ((.ok (), n₁), e₁) ∧
          x ∈ effects ((deploymentPlan d n₁).log e₁) := by
  rw [convergePlan, Plan.log_bind, effects_append, List.mem_append]
  refine or_congr_right ?_
  rcases (repositoryPlan generate c d n).run e with ⟨⟨_ | _, n₁⟩, e₁⟩
  · simp [Plan.log]
  · rw [Plan.log_bind, effects_append, List.mem_append]
    rcases (deploymentPlan d n₁).run e₁ with ⟨⟨_ | _, n₂⟩, e₂⟩
    · simp [Plan.log]
    · simp [effects_scaledPlan]

lemma push_mem_convergePlan :
    .push d.name ∈ effects ((convergePlan generate c d n).log e) ↔
      .push d.name ∈ effects ((repositoryPlan generate c d n).log e) := by
  rw [mem_effects_convergePlan]
  refine or_iff_left ?_
  rintro ⟨n₁, e₁, -, hpush⟩
  have h := deploymentSetUp d n₁ e₁
  generalize (deploymentPlan d n₁).log e₁ = log at h hpush
  generalize (deploymentPlan d n₁).run e₁ = x at h
  exact h.spares.1 d.name hpush

/-- The second setup step builds from what the first has just pushed, or from the repository that is
there if the first was done before. -/
lemma create_mem_convergePlan (hn : n.gitRepo = none) :
    .create d.name ∈ effects ((convergePlan generate c d n).log e) ↔
      SetupSteps.provisioning ∉ n.steps.done ∧
        (.push d.name ∈ effects ((repositoryPlan generate c d n).log e) ∨
          (SetupSteps.sourceRepo ∈ n.steps.done ∧ (e.sourceControl.repository? d.name).isSome)) ∧
        (e.provisioner.gate .create).fault = none := by
  have h := repositorySetUp generate c d n e
  have hgate := gate_create_repositoryPlan generate c d n e
  have hurl : (∃ url, sources d (n.progress e) = .ok url) ↔
      (e.sourceControl.repository? d.name).isSome := by
    simp only [sources, Notes.progress, hn, SourceControl.cloneUrl, Dict.contains,
      SourceControl.repository?]
    split <;> simp_all
  rw [mem_effects_convergePlan]
  generalize (repositoryPlan generate c d n).log e = log at h ⊢
  generalize (repositoryPlan generate c d n).run e = x at h hgate ⊢
  rcases x with ⟨⟨result, n₁⟩, e₁⟩
  dsimp only at h hgate
  cases h with
  | skipped hdone =>
    have hnoted := SetupSteps.isDone_iff.1 hdone
    simp [create_mem_deploymentPlan, hurl, hnoted]
  | failed hdone hsame hlog =>
    have hnot := SetupSteps.not_mem_of_isDone hdone
    simp [hlog, hnot]
  | pushed hdone hfiles hrepositories hurl hdeployments hlog =>
    have hnot : SetupSteps.provisioning ∈ (n.steps.mark SetupSteps.sourceRepo).done ↔
        SetupSteps.provisioning ∈ n.steps.done :=
      SetupSteps.mem_mark.trans (or_iff_left (by decide))
    simp [create_mem_deploymentPlan, hlog, hnot, sources, Notes.progress, hgate]

/-- With a usable token the effects of an attempt are those of its setup steps. -/
lemma effects_plan {token : Token} (htoken : c.integration.token = some token)
    (hvalid : token.isExpired c.clock = false) :
    effects ((plan generate c).log e)
      = effects ((convergePlan generate c (descriptor c token.value e.mint.1)
          { steps := .ofList c.integration.stepsDone }).log e.mint.2) := by
  rw [plan]
  simp [htoken, hvalid, Plan.log, Plan.log_bind, BackendRequest.perform, effects, Entry.effect?]

/-- When an attempt pushes. -/
theorem push_mem_plan (generate : Project.Generator) (e : Environment)
    (htoken : c.integration.HasToken c.clock) :
    .push (resourceName c.integration) ∈ effects ((plan generate c).log e) ↔
      Pushes generate c.integration c.revision e := by
  obtain ⟨token, htoken, hvalid⟩ := htoken
  rw [effects_plan htoken hvalid, ← descriptor_name c token.value e.mint.1, push_mem_convergePlan,
    push_mem_repositoryPlan, SetupSteps.mem_ofList]
  exact ⟨fun ⟨h₁, h₂, h₃, h₄⟩ => ⟨h₁, h₂, h₃, h₄⟩, fun ⟨h₁, h₂, h₃, h₄⟩ => ⟨h₁, h₂, h₃, h₄⟩⟩

/-- When an attempt creates the deployment. -/
theorem create_mem_plan (generate : Project.Generator) (e : Environment)
    (htoken : c.integration.HasToken c.clock) :
    .create (resourceName c.integration) ∈ effects ((plan generate c).log e) ↔
      Creates generate c.integration c.revision e := by
  have hpush := push_mem_plan generate e htoken
  obtain ⟨token, htoken, hvalid⟩ := htoken
  rw [effects_plan htoken hvalid, ← descriptor_name c token.value e.mint.1,
    push_mem_convergePlan] at hpush
  rw [effects_plan htoken hvalid, ← descriptor_name c token.value e.mint.1,
    create_mem_convergePlan rfl, hpush, SetupSteps.mem_ofList, SetupSteps.mem_ofList,
    descriptor_name]
  exact ⟨fun ⟨h₁, h₂, h₃⟩ => ⟨h₁, h₂, h₃⟩, fun ⟨h₁, h₂, h₃⟩ => ⟨h₁, h₂, h₃⟩⟩

/-- The backends hold the same after an attempt exactly if no setup step takes effect, as a push is
one more commit, and a creation hands over a secret that the deployment did not hold. -/
theorem holdsSame_attempt (generate : Project.Generator) (htoken : c.integration.HasToken c.clock)
    (hnew : e.secret? (resourceName c.integration) ≠ some (e.secretAt e.minted)) :
    e.HoldsSame (attempt generate c e).2 ↔ ¬ (Pushes generate c.integration c.revision e ∨
      Creates generate c.integration c.revision e) := by
  obtain ⟨u, -, hattempted⟩ := attempted generate c e
  rw [← push_mem_plan generate e htoken, ← create_mem_plan generate e htoken]
  constructor
  · rintro hsame (hpush | hcreate)
    · have hcommits := (plan generate c).commits_run e (resourceName c.integration)
      have hcount := List.count_pos_iff.2 hpush
      rw [run_plan, Environment.commits, (hsame.spares _).repository, Environment.commits]
        at hcommits
      omega
    · have hsecret := hattempted.hooks.secret
      rw [if_pos hcreate, Environment.secret?, Provisioner.deployment?, hsame.deployments]
        at hsecret
      exact hnew hsecret
  · intro hnone
    have hquiet : effects ((plan generate c).log e) = [] := by
      refine List.eq_nil_iff_forall_not_mem.2 fun x hx => hnone ?_
      obtain ⟨step, hstep⟩ := hattempted.stepEffect x hx
      cases hstep with
      | push => exact Or.inl hx
      | create => exact Or.inr hx
    rw [← run_plan]
    exact (plan generate c).holdsSame_run e hquiet

end Activation

/-! ## Promotions that are refused -/

/-- The revision to bring to life bears the version of an active one that does something else. -/
def Integration.Conflicts (i : Integration) : Prop :=
  ∃ r, i.revision? (i.versionFor i.targetRevision) = some r ∧ r.isImmutable = true ∧
    r.spec ≠ i.targetRevision.spec

namespace Integration.Conflicts

variable {i j : Integration}

/-- The promotion of the revision is refused. -/
lemma promote_ne_ok (h : i.Conflicts) {r : Revision} {v : Version}
    (hversion : r.version = some (i.versionFor i.targetRevision))
    (hspec : r.spec = i.targetRevision.spec) : i.promote r ≠ .ok (j, v) := by
  intro hpromote
  obtain ⟨active, hactive, himmutable, hne⟩ := h
  obtain ⟨rfl, history, hhistory, -⟩ := promote_eq_ok hpromote
  rw [versionFor, hversion, Option.getD_some] at hhistory
  rcases promotedHistory_eq_ok hhistory with
    ⟨existing, he, -, hsame, -⟩ | ⟨existing, he, hmutable, -⟩ | ⟨hnone, -⟩
  · obtain rfl : active = existing := Option.some.inj (hactive.symm.trans he)
    exact hne (hsame.trans hspec)
  · obtain rfl : active = existing := Option.some.inj (hactive.symm.trans he)
    simp [himmutable] at hmutable
  · simp [hactive] at hnone

/-- Revisions, draft and deployed version stay as they are, whatever is taken over of an attempt. -/
lemma unpromoted (h : i.Conflicts) {generate : Project.Generator} {c : Call}
    (hc : c.integration = i) (hrevision : c.revision = i.targetRevision) {u : StatusUpdate}
    {e e' : Environment} {log : List Entry}
    (hattempted : Activation.Attempted generate c e u e' log) {clock : Timestamp}
    (happly : i.applyUpdate u clock = .ok j) :
    j.revisions = i.revisions ∧ j.deployed = i.deployed ∧ j.draft = i.draft := by
  obtain ⟨k, ⟨-, rfl⟩ | ⟨r, v, hr, hpromote⟩, rfl⟩ := applyUpdate_eq_ok happly
  · exact ⟨rfl, rfl, rfl⟩
  · obtain ⟨hspec, hversion⟩ := hattempted.of_promoted hr
    rw [hc, hrevision] at hversion
    rw [hrevision] at hspec
    exact absurd hpromote (h.promote_ne_ok hversion hspec)

end Integration.Conflicts

namespace Worker

open Activation (Pushes Creates)

section Dispatch

variable {generate : Project.Generator} {w : Worker} {site : Site} {id : IntegrationId}
  {meanwhile : Site → Site} {i j : Integration}

/-- How a dispatch of the activation goes that calls the handler while nobody else uses record and
backends. -/
lemma dispatch_undisturbed (w : Worker) (hf : site.store.faults .fetch = 0) (hk : site.store.Keyed)
    (hcalls : Calls site.store id (.activate generate) i .active) (hm : Undisturbed id meanwhile)
    (hquiet : ∀ s, (meanwhile s).environment = s.environment) :
    (w.dispatch site id (.activate generate) meanwhile).2.environment
        = (Activation.attempt generate (callOf site (.activate generate) i) site.environment).2 ∧
      ∃ (store : Store) (clock : Timestamp) (u : StatusUpdate), store.record? id = some i ∧
        store.Keyed ∧ Activation.Attempted generate (callOf site (.activate generate) i)
          site.environment u (w.dispatch site id (.activate generate) meanwhile).2.environment
          ((Activation.plan generate (callOf site (.activate generate) i)).log site.environment) ∧
        (w.dispatch site id (.activate generate) meanwhile).2.store
          = (settle store clock id (.report u)).2 := by
  obtain ⟨u, hu, hattempted⟩ := Activation.attempted generate
    (callOf site (.activate generate) i) site.environment
  have hfinish : Activation.attempt generate (callOf site (.activate generate) i)
      (meanwhile { site with serials := site.serials + 1 }).environment
        = (.report u, (Activation.attempt generate (callOf site (.activate generate) i)
            site.environment).2) := by
    rw [hquiet]
    exact Prod.ext hu rfl
  obtain ⟨hstore, henvironment⟩ := dispatch_of_calls w hf hcalls rfl rfl hfinish
  have hrecord := (hm.record { site with serials := site.serials + 1 }).trans hcalls.record
  have hkeyed := hm.keyed { site with serials := site.serials + 1 } hk
  rw [← henvironment] at hattempted
  exact ⟨henvironment, _, _, u, hrecord, hkeyed, hattempted, hstore⟩

end Dispatch

/-- **What comes of deploying a revision that cannot be promoted.**  A record with a valid token is
to be brought to life with a revision whose version belongs to an active one that does something
else.  Then a dispatch promotes nothing.  But it leaves the backends alone only if it does not call
the handler, or no setup step of the attempt takes effect. -/
theorem untouched_iff (generate : Project.Generator) {w : Worker} (idle : w.attempt = none)
    {site : Site} (hk : site.store.Keyed) {id : IntegrationId} {i : Integration}
    (hi : site.store.record? id = some i) (hconflicts : i.Conflicts)
    (htoken : i.HasToken site.clock)
    (hnew : site.environment.secret? (resourceName i)
      ≠ some (site.environment.secretAt site.environment.minted))
    {meanwhile : Site → Site} (hm : Undisturbed id meanwhile)
    (hquiet : ∀ s, (meanwhile s).environment = s.environment) :
    let site' := (w.dispatch site id (.activate generate) meanwhile).2
    (∀ j, site'.store.record? id = some j →
        j.revisions = i.revisions ∧ j.deployed = i.deployed ∧ j.draft = i.draft) ∧
      (site.environment.HoldsSame site'.environment ↔
        ¬ (site.store.faults .fetch = 0 ∧ i.desired = some .active ∧ i.isConverged = false ∧
          (Pushes generate i i.targetRevision site.environment ∨
            Creates generate i i.targetRevision site.environment))) := by
  intro site'
  rcases refused_or_calls site id (.activate generate) with hno | ⟨hf, i', d, hcalls⟩
  · obtain ⟨hrecords, -, henvironment⟩ := dispatch_refused meanwhile idle hno
    refine ⟨fun j hj => ?_, ?_⟩
    · rw [Store.record?, hrecords] at hj
      obtain rfl : i = j := Option.some.inj (hi.symm.trans hj)
      exact ⟨rfl, rfl, rfl⟩
    · refine iff_of_true ?_ ?_
      · rw [henvironment]
        exact .refl _
      · rintro ⟨hf, hdesired, hunconverged, -⟩
        rcases hno with hfault | hno
        · exact hfault hf
        · have hhandles : (Handler.activate generate).handles .active = true := by
            simp [Handler.handles, Handler.activate]
          exact hno i .active ⟨hi, hdesired, hunconverged, hhandles⟩
  · obtain rfl : i = i' := Option.some.inj (hi.symm.trans hcalls.record)
    obtain rfl : d = .active := by simpa [Handler.handles, Handler.activate] using hcalls.handles
    obtain ⟨henvironment, store, clock, u, hrecord, hkeyed, hattempted, hstore⟩ :=
      dispatch_undisturbed w hf hk hcalls hm hquiet
    refine ⟨fun j hj => ?_, ?_⟩
    · rw [hstore] at hj
      rcases record?_settle hkeyed hrecord hj with rfl | ⟨u', hu, happly⟩ | ⟨message, rfl⟩
      · exact ⟨rfl, rfl, rfl⟩
      · cases hu
        exact hconflicts.unpromoted rfl rfl hattempted happly
      · exact ⟨rfl, rfl, rfl⟩
    · rw [henvironment]
      have hsame := Activation.holdsSame_attempt generate
        (c := callOf site (.activate generate) i) htoken hnew
      rw [hsame]
      exact not_congr ⟨fun h => ⟨hf, hcalls.desired, hcalls.unconverged, h⟩, fun h => h.2.2.2⟩

/-! ## A deployment that is replaced all the same -/

/-- A record that was stopped, and is to run again with its first version changed. -/
def rewrittenRecord : Integration where
  id := "x"
  name := "Orders Sync"
  desired := some .active
  current := some .undeployed
  revisions := [{ version := some 1, currentState := .active, targetState := .active }]
  draft := some { version := some 1, spec := { steps := [{ kind := "log", name := "changed" }] } }
  deployed := some 1
  token := some { value := "t" }
  createdAt := stoppedRecord.createdAt

/-- A site whose store holds that record only, with the deployment of the first version. -/
def rewrittenSite : Site where
  store := { records := Dict.empty.insert "x" rewrittenRecord }
  environment :=
    { provisioner :=
        { deployments := Dict.empty.insert "orders-sync"
            { revision := 1, replicas := 0, readyReplicas := 0, webhookSecret := some "first" } } }
  clock := rewrittenRecord.createdAt

lemma conflicts_rewrittenRecord : rewrittenRecord.Conflicts := by
  refine ⟨{ version := some 1, currentState := .active, targetState := .active }, ?_, ?_, ?_⟩ <;>
    decide

/-- The dispatch promotes nothing, but the backends do not hold the same. -/
theorem rewritten_touched :
    (∀ j, (({} : Worker).dispatch rewrittenSite "x" (.activate Project.generator)
        fun s => s).2.store.record? "x" = some j → j.revisions = rewrittenRecord.revisions) ∧
      ¬ rewrittenSite.environment.HoldsSame
        (({} : Worker).dispatch rewrittenSite "x" (.activate Project.generator)
          fun s => s).2.environment := by
  obtain ⟨hunpromoted, hiff⟩ := untouched_iff Project.generator (w := {}) rfl
    (Store.keyed_singleton rewrittenRecord) (by decide : rewrittenSite.store.record? "x" = _)
    conflicts_rewrittenRecord ⟨_, rfl, rfl⟩ (by decide) (undisturbed_id "x") (fun _ => rfl)
  refine ⟨fun j hj => (hunpromoted j hj).1, fun hsame => ?_⟩
  refine hiff.1 hsame ⟨rfl, rfl, by decide, Or.inl ⟨by decide, ⟨_, rfl⟩, rfl, rfl⟩⟩

/-- It is not so that a dispatch that is bound to be refused leaves the backends alone. -/
theorem not_forall_untouched : ¬ ∀ (w : Worker) (site : Site) (id : IntegrationId)
    (i : Integration) (meanwhile : Site → Site), w.attempt = none → site.store.Keyed →
    site.store.record? id = some i → i.Conflicts → i.HasToken site.clock →
    Undisturbed id meanwhile → (∀ s, (meanwhile s).environment = s.environment) →
    site.environment.HoldsSame
      (w.dispatch site id (.activate Project.generator) meanwhile).2.environment := by
  intro hall
  have hsame := hall {} rewrittenSite "x" rewrittenRecord (fun s => s) rfl
    (Store.keyed_singleton rewrittenRecord) (by decide) conflicts_rewrittenRecord ⟨_, rfl, rfl⟩
    (undisturbed_id "x") fun _ => rfl
  have hreplaced : (({} : Worker).dispatch rewrittenSite "x" (.activate Project.generator)
      fun s => s).2.environment.provisioner.deployment? "orders-sync"
        ≠ rewrittenSite.environment.provisioner.deployment? "orders-sync" := by decide +kernel
  exact hreplaced (by rw [Provisioner.deployment?, hsame.deployments, Provisioner.deployment?])

end Worker

end Convergence
