import Convergence.Proofs.Activation.Readiness
import Convergence.Proofs.Backend.Plan
import Convergence.Proofs.SetupSteps
/-!
# What an attempt asks of the backends

`plan` puts an attempt of the activation down as a plan of requests, and `run_plan` says that the
attempt is what the plan does.  So the log of the plan is the log of the attempt.

What the plan can come to is listed setup step by setup step: `RepositorySetUp`, `DeploymentSetUp`,
and `Converged` for the whole.  Each case says what the attempt has done to its notes, to the
backends, and which of its requests had an effect.
-/

namespace Convergence

namespace Activation

/-- What an attempt notes of its doings: the setup steps that are done, and where the project can be
cloned from, if this attempt pushed it. -/
structure Notes where
  steps : SetupSteps
  gitRepo : Option String := none

/-- How far an attempt with these notes has come in an environment. -/
def Notes.progress (n : Notes) (e : Environment) : Progress :=
  { environment := e, steps := n.steps, gitRepo := n.gitRepo }

/-! ## Plans -/

section Plans

variable (generate : Project.Generator) (c : Call) (d : Descriptor)

/-- The first setup step. -/
def repositoryPlan (n : Notes) : Plan (Except ReconcileError Unit × Notes) :=
  if n.steps.isDone SetupSteps.sourceRepo then .done (.ok (), n)
  else
    match generate c.integration c.revision with
    | .error e => .done (.error e, n)
    | .ok files =>
      .ask (.webhookUrl d (d.webhookSecret.getD "")) fun
        | .error e => .done (.error (.provisioning e), n)
        | .ok webhook =>
          .ask (.push d.name commitMessage files webhook) fun
            | .error e => .done (.error (.sourceControl e), n)
            | .ok url =>
              .done (.ok (), { steps := n.steps.mark SetupSteps.sourceRepo, gitRepo := some url })

/-- Where the build takes its sources from. -/
def sourcesPlan (n : Notes) : Plan (Except SourceControlError String) :=
  match n.gitRepo with
  | some url => .done (.ok url)
  | none => .ask (.cloneUrl d.name) .done

/-- The second setup step. -/
def deploymentPlan (n : Notes) : Plan (Except ReconcileError Unit × Notes) :=
  if n.steps.isDone SetupSteps.provisioning then .done (.ok (), n)
  else
    (sourcesPlan d n).bind fun
      | .error e => .done (.error (.sourceControl e), n)
      | .ok url =>
        .ask (.create { d with gitRepository := some url }) fun
          | .error e => .done (.error (.provisioning e), n)
          | .ok () => .done (.ok (), { n with steps := n.steps.mark SetupSteps.provisioning })

/-- The question whether the deployment is scaled. -/
def scaledPlan (n : Notes) : Plan (Except ReconcileError Bool × Notes) :=
  .ask (.isScaled d) fun
    | .error e => .done (.error (.provisioning e), n)
    | .ok scaled => .done (.ok scaled, n)

/-- The setup steps that are not done, and then the question. -/
def convergePlan (n : Notes) : Plan (Except ReconcileError Bool × Notes) :=
  (repositoryPlan generate c d n).bind fun
    | (.error e, n) => .done (.error e, n)
    | (.ok (), n) =>
      (deploymentPlan d n).bind fun
        | (.error e, n) => .done (.error e, n)
        | (.ok (), n) => scaledPlan d n

/-- One attempt. -/
def plan : Plan Outcome :=
  match c.integration.token with
  | none => .done (.report (withoutToken c "No token present"))
  | some token =>
    if token.isExpired c.clock then .done (.report (withoutToken c "Token is expired"))
    else
      .ask .secret fun secret =>
        (convergePlan generate c (descriptor c token.value secret)
          { steps := .ofList c.integration.stepsDone }).bind fun (result, n) =>
            .done (.report (report c result (n.progress {})))

end Plans

/-! ## The plans are what is done -/

section Runs

variable {generate : Project.Generator} {c : Call} {d : Descriptor} {n : Notes} {e : Environment}

/-- The end of a plan, as the end of a step of an attempt. -/
def ended {α : Type} (x : (Except ReconcileError α × Notes) × Environment) :
    Except ReconcileError α × Progress :=
  (x.1.1, x.1.2.progress x.2)

lemma setUpRepository_eq (generate : Project.Generator) (c : Call) (d : Descriptor) (n : Notes)
    (e : Environment) :
    setUpRepository generate c d (n.progress e)
      = ended ((repositoryPlan generate c d n).run e) := by
  rw [setUpRepository, repositoryPlan]
  by_cases hdone : n.steps.isDone SetupSteps.sourceRepo = true
  · simp [Notes.progress, hdone, Plan.run, ended]
  simp only [Notes.progress, hdone]
  cases generate c.integration c.revision with
  | error err => rfl
  | ok files =>
    simp only [Bool.false_eq_true, if_false, Plan.run, BackendRequest.perform]
    rcases e.provisioner.webhookUrl d (d.webhookSecret.getD "") with ⟨answer, provisioner⟩
    cases answer with
    | error err => rfl
    | ok webhook =>
      simp only [Plan.run, BackendRequest.perform]
      rcases e.sourceControl.push d.name commitMessage files webhook with ⟨answer, sourceControl⟩
      cases answer <;> rfl

lemma sources_eq (d : Descriptor) (n : Notes) (e : Environment) :
    (sourcesPlan d n).run e = (sources d (n.progress e), e) := by
  cases h : n.gitRepo <;>
    simp [sources, sourcesPlan, Notes.progress, h, Plan.run, BackendRequest.perform]

lemma setUpDeployment_eq (d : Descriptor) (n : Notes) (e : Environment) :
    setUpDeployment d (n.progress e) = ended ((deploymentPlan d n).run e) := by
  have hsources := sources_eq d n e
  rw [setUpDeployment, deploymentPlan]
  by_cases hdone : n.steps.isDone SetupSteps.provisioning = true
  · simp [Notes.progress, hdone, Plan.run, ended]
  rw [if_neg (by simpa [Notes.progress] using hdone), if_neg hdone, Plan.run_bind, hsources]
  cases sources d (n.progress e) with
  | error err => rfl
  | ok url =>
    simp only [Plan.run, BackendRequest.perform, Notes.progress]
    rcases e.provisioner.create { d with gitRepository := some url } with ⟨answer, provisioner⟩
    cases answer <;> rfl

lemma converge_eq (generate : Project.Generator) (c : Call) (d : Descriptor) (n : Notes)
    (e : Environment) :
    converge generate c d (n.progress e) = ended ((convergePlan generate c d n).run e) := by
  rw [converge, convergePlan, setUpRepository_eq, Plan.run_bind]
  rcases (repositoryPlan generate c d n).run e with ⟨⟨result, n₁⟩, e₁⟩
  cases result with
  | error err => rfl
  | ok done =>
    simp only [ended]
    rw [setUpDeployment_eq, Plan.run_bind]
    rcases (deploymentPlan d n₁).run e₁ with ⟨⟨result, n₂⟩, e₂⟩
    cases result with
    | error err => rfl
    | ok done =>
      simp only [ended, scaledPlan, Plan.run, BackendRequest.perform, Notes.progress]
      rcases e₂.provisioner.isScaled d with ⟨answer, provisioner⟩
      cases answer <;> rfl

/-- What is reported does not depend on the environment. -/
lemma report_progress (c : Call) (result : Except ReconcileError Bool) (n : Notes)
    (e e' : Environment) : report c result (n.progress e) = report c result (n.progress e') := by
  rcases result with _ | _ | _ <;> rfl

/-- An attempt is what its plan does. -/
theorem run_plan (generate : Project.Generator) (c : Call) (e : Environment) :
    (plan generate c).run e = attempt generate c e := by
  rw [plan, attempt]
  cases htoken : c.integration.token with
  | none => rfl
  | some token =>
    by_cases hexpired : token.isExpired c.clock = true
    · simp [hexpired, Plan.run]
    · have hconverge := converge_eq generate c (descriptor c token.value e.mint.1)
        { steps := .ofList c.integration.stepsDone } e.mint.2
      simp only [Notes.progress] at hconverge
      simp only [hexpired, Bool.false_eq_true, if_false, Plan.run, BackendRequest.perform,
        Plan.run_bind, hconverge, ended]
      exact Prod.ext (congrArg Outcome.report (report_progress ..)) rfl

end Runs

/-! ## What the plans can come to -/

section Cases

variable (generate : Project.Generator) (c : Call) (d : Descriptor) (n : Notes) (e : Environment)

/-- What the first setup step can come to: its result, the environment afterwards, and its log. -/
inductive RepositorySetUp :
    Except ReconcileError Unit × Notes → Environment → List Entry → Prop where
  /-- The step was done before. -/
  | skipped (hdone : n.steps.isDone SetupSteps.sourceRepo = true) : RepositorySetUp (.ok (), n) e []
  | failed {err : ReconcileError} {e' : Environment} {log : List Entry}
      (hdone : n.steps.isDone SetupSteps.sourceRepo = false) (hsame : e.HoldsSame e')
      (hlog : effects log = []) : RepositorySetUp (.error err, n) e' log
  | pushed {files : ProjectFiles} {e' : Environment} {log : List Entry}
      (hdone : n.steps.isDone SetupSteps.sourceRepo = false)
      (hfiles : generate c.integration c.revision = .ok files)
      (hrepositories : e'.sourceControl.repositories = e.sourceControl.repositories.insert d.name
        (((e.sourceControl.repository? d.name).getD {}).pushed commitMessage files
          (e.provisioner.webhookAddress d.name (d.webhookSecret.getD ""))))
      (hurl : e'.sourceControl.baseUrl = e.sourceControl.baseUrl)
      (hdeployments : e'.provisioner.deployments = e.provisioner.deployments)
      (hlog : effects log = [.push d.name]) :
      RepositorySetUp
        (.ok (), { steps := n.steps.mark SetupSteps.sourceRepo,
                   gitRepo := some (e.sourceControl.cloneAddress d.name) }) e' log

/-- What the second setup step can come to. -/
inductive DeploymentSetUp :
    Except ReconcileError Unit × Notes → Environment → List Entry → Prop where
  /-- The step was done before. -/
  | skipped (hdone : n.steps.isDone SetupSteps.provisioning = true) :
      DeploymentSetUp (.ok (), n) e []
  | failed {err : ReconcileError} {e' : Environment} {log : List Entry}
      (hdone : n.steps.isDone SetupSteps.provisioning = false) (hsame : e.HoldsSame e')
      (hlog : effects log = []) : DeploymentSetUp (.error err, n) e' log
  | created {url : String} {e' : Environment} {log : List Entry}
      (hdone : n.steps.isDone SetupSteps.provisioning = false)
      (hurl : sources d (n.progress e) = .ok url)
      (hdeployments : e'.provisioner.deployments = e.provisioner.deployments.insert d.name
        (e.provisioner.fresh { d with gitRepository := some url }))
      (hsource : e'.sourceControl = e.sourceControl) (hlog : effects log = [.create d.name]) :
      DeploymentSetUp (.ok (), { n with steps := n.steps.mark SetupSteps.provisioning }) e' log

/-- What both setup steps and the question can come to. -/
inductive Converged :
    Except ReconcileError Bool × Notes → Environment → List Entry → Prop where
  /-- The first setup step fails. -/
  | unpushed {err : ReconcileError} {n' : Notes} {e' : Environment} {log : List Entry}
      (h : RepositorySetUp generate c d n e (.error err, n') e' log) :
      Converged (.error err, n') e' log
  /-- The second setup step fails. -/
  | uncreated {err : ReconcileError} {n₁ n₂ : Notes} {e₁ e₂ : Environment} {l₁ l₂ : List Entry}
      (h₁ : RepositorySetUp generate c d n e (.ok (), n₁) e₁ l₁)
      (h₂ : DeploymentSetUp d n₁ e₁ (.error err, n₂) e₂ l₂) :
      Converged (.error err, n₂) e₂ (l₁ ++ l₂)
  /-- The question is asked. -/
  | asked {result : Except ReconcileError Bool} {n₁ n₂ : Notes} {e₁ e₂ e₃ : Environment}
      {l₁ l₂ l₃ : List Entry} (h₁ : RepositorySetUp generate c d n e (.ok (), n₁) e₁ l₁)
      (h₂ : DeploymentSetUp d n₁ e₁ (.ok (), n₂) e₂ l₂) (hsame : e₂.HoldsSame e₃)
      (hlog : effects l₃ = []) : Converged (result, n₂) e₃ (l₁ ++ l₂ ++ l₃)

/-- The first setup step comes to one of the cases. -/
theorem repositorySetUp : RepositorySetUp generate c d n e
    ((repositoryPlan generate c d n).run e).1 ((repositoryPlan generate c d n).run e).2
    ((repositoryPlan generate c d n).log e) := by
  by_cases hdone : n.steps.isDone SetupSteps.sourceRepo = true
  · simpa [repositoryPlan, hdone, Plan.run, Plan.log] using RepositorySetUp.skipped hdone
  have hnot : n.steps.isDone SetupSteps.sourceRepo = false := by simpa using hdone
  rw [repositoryPlan, if_neg hdone]
  cases hfiles : generate c.integration c.revision with
  | error err => exact .failed hnot (.refl e) rfl
  | ok files =>
    simp only [Plan.run, Plan.log, BackendRequest.perform]
    rcases e.provisioner.webhookUrl_cases d (d.webhookSecret.getD "") with
      ⟨err, gate, hcall⟩ | ⟨gate, hcall⟩
    · rw [hcall]
      exact .failed hnot ⟨rfl, rfl, rfl⟩ rfl
    · rw [hcall]
      simp only [Plan.run, Plan.log, BackendRequest.perform]
      rcases e.sourceControl.push_cases d.name commitMessage files
        (e.provisioner.webhookAddress d.name (d.webhookSecret.getD "")) with
        ⟨err, gate', hpush⟩ | ⟨gate', hpush⟩
      · rw [hpush]
        exact .failed hnot ⟨rfl, rfl, rfl⟩ rfl
      · rw [hpush]
        exact .pushed hnot hfiles rfl rfl rfl rfl

/-- To ask where the sources are has no effect. -/
lemma effects_sourcesPlan (d : Descriptor) (n : Notes) (e : Environment) :
    effects ((sourcesPlan d n).log e) = [] := by
  cases h : n.gitRepo with
  | some url => simp [sourcesPlan, h, Plan.log]
  | none =>
    simp only [sourcesPlan, h, Plan.log, effects, List.filterMap_cons, List.filterMap_nil,
      Entry.effect?]
    split <;> simp_all

/-- The second setup step comes to one of the cases. -/
theorem deploymentSetUp : DeploymentSetUp d n e
    ((deploymentPlan d n).run e).1 ((deploymentPlan d n).run e).2 ((deploymentPlan d n).log e) := by
  by_cases hdone : n.steps.isDone SetupSteps.provisioning = true
  · simpa [deploymentPlan, hdone, Plan.run, Plan.log] using DeploymentSetUp.skipped hdone
  have hnot : n.steps.isDone SetupSteps.provisioning = false := by simpa using hdone
  have hquiet := effects_sourcesPlan d n e
  rw [deploymentPlan, if_neg hdone, Plan.run_bind, Plan.log_bind, sources_eq]
  cases hurl : sources d (n.progress e) with
  | error err => exact .failed hnot (.refl e) (by simp [hquiet, Plan.log])
  | ok url =>
    simp only [Plan.run, Plan.log, BackendRequest.perform]
    rcases e.provisioner.create_cases { d with gitRepository := some url } with
      ⟨err, gate, hcreate⟩ | ⟨gate, hcreate⟩
    · rw [hcreate]
      exact .failed hnot ⟨rfl, rfl, rfl⟩ (by rw [effects_append, hquiet]; rfl)
    · rw [hcreate]
      exact .created hnot hurl rfl rfl (by rw [effects_append, hquiet]; rfl)

/-- The question has no effect. -/
lemma effects_scaledPlan (d : Descriptor) (n : Notes) (e : Environment) :
    effects ((scaledPlan d n).log e) = [] := by
  simp only [scaledPlan, Plan.log, effects, List.filterMap_cons, Entry.effect?]
  rcases e.provisioner.isScaled_cases d with ⟨err, gate, hcall⟩ | ⟨gate, hcall⟩ <;>
    simp [BackendRequest.perform, hcall, Plan.log]

/-- The setup steps and the question come to one of the cases. -/
theorem converged : Converged generate c d n e
    ((convergePlan generate c d n).run e).1 ((convergePlan generate c d n).run e).2
    ((convergePlan generate c d n).log e) := by
  have h₁ := repositorySetUp generate c d n e
  rw [convergePlan, Plan.run_bind, Plan.log_bind]
  generalize (repositoryPlan generate c d n).log e = l₁ at h₁ ⊢
  generalize (repositoryPlan generate c d n).run e = x₁ at h₁ ⊢
  rcases x₁ with ⟨⟨_ | _, n₁⟩, e₁⟩
  · simpa [Plan.run, Plan.log] using Converged.unpushed h₁
  have h₂ := deploymentSetUp d n₁ e₁
  simp only [Plan.run_bind, Plan.log_bind]
  generalize (deploymentPlan d n₁).log e₁ = l₂ at h₂ ⊢
  generalize (deploymentPlan d n₁).run e₁ = x₂ at h₂ ⊢
  rcases x₂ with ⟨⟨_ | _, n₂⟩, e₂⟩
  · simpa [Plan.run, Plan.log] using Converged.uncreated h₁ h₂
  -- what is left is the question, which has no effect
  have hquiet := effects_scaledPlan d n₂ e₂
  have hsame := (scaledPlan d n₂).holdsSame_run e₂ hquiet
  have hnotes : ((scaledPlan d n₂).run e₂).1 = (((scaledPlan d n₂).run e₂).1.1, n₂) := by
    simp only [scaledPlan, Plan.run, BackendRequest.perform]
    rcases e₂.provisioner.isScaled_cases d with ⟨err, gate, hcall⟩ | ⟨gate, hcall⟩ <;>
      rw [hcall] <;> rfl
  rw [hnotes, ← List.append_assoc]
  exact .asked h₁ h₂ hsame hquiet

/-- What an attempt can come to: what it reports, the environment afterwards, and its log. -/
inductive Attempted : StatusUpdate → Environment → List Entry → Prop where
  /-- There is no usable token. -/
  | untried {message : String} (h : ¬ c.integration.HasToken c.clock) :
      Attempted (withoutToken c message) e []
  | tried {token : Token} {result : Except ReconcileError Bool} {n : Notes} {e' : Environment}
      {log : List Entry} (htoken : c.integration.token = some token)
      (hvalid : token.isExpired c.clock = false)
      (h : Converged generate c (descriptor c token.value e.mint.1)
        { steps := .ofList c.integration.stepsDone } e.mint.2 (result, n) e' log) :
      Attempted (report c result (n.progress {})) e' (⟨.secret, true⟩ :: log)

/-- An attempt comes to one of the cases. -/
theorem attempted : ∃ u, (attempt generate c e).1 = .report u ∧
    Attempted generate c e u (attempt generate c e).2 ((plan generate c).log e) := by
  rw [← run_plan, plan]
  cases htoken : c.integration.token with
  | none => exact ⟨_, rfl, .untried (by simp [Integration.HasToken, htoken])⟩
  | some token =>
    by_cases hexpired : token.isExpired c.clock = true
    · have hnone : ¬ c.integration.HasToken c.clock := by
        simp [Integration.HasToken, htoken, hexpired]
      simp only [hexpired, if_true]
      exact ⟨_, rfl, .untried hnone⟩
    · have hvalid : token.isExpired c.clock = false := by simpa using hexpired
      have hconverged := converged generate c (descriptor c token.value e.mint.1)
        { steps := .ofList c.integration.stepsDone } e.mint.2
      simp only [hvalid, Bool.false_eq_true, if_false, Plan.run, Plan.log, BackendRequest.perform,
        Plan.run_bind, Plan.log_bind, List.append_nil]
      exact ⟨_, rfl, .tried htoken hvalid hconverged⟩

end Cases

/-! ## What is noted and promoted -/

section Noted

variable {generate : Project.Generator} {c : Call} {d : Descriptor} {n n' : Notes}
  {e e' : Environment} {log : List Entry}

/-- After the first setup step the push is noted. -/
lemma RepositorySetUp.noted (h : RepositorySetUp generate c d n e (.ok (), n') e' log) :
    SetupSteps.sourceRepo ∈ n'.steps.done := by
  cases h with
  | skipped hdone => exact SetupSteps.isDone_iff.1 hdone
  | pushed hdone hfiles hrepositories hurl hdeployments hlog =>
    exact SetupSteps.mem_mark.2 (Or.inr rfl)

/-- After the second setup step the deployment is noted. -/
lemma DeploymentSetUp.noted (h : DeploymentSetUp d n e (.ok (), n') e' log) :
    SetupSteps.provisioning ∈ n'.steps.done := by
  cases h with
  | skipped hdone => exact SetupSteps.isDone_iff.1 hdone
  | created hdone hurl hdeployments hsource hlog => exact SetupSteps.mem_mark.2 (Or.inr rfl)

/-- The second setup step pushes nothing, and leaves every repository alone. -/
lemma DeploymentSetUp.spares {x : Except ReconcileError Unit × Notes}
    (h : DeploymentSetUp d n e x e' log) :
    (∀ repo, .push repo ∉ effects log) ∧
      e'.sourceControl.repositories = e.sourceControl.repositories := by
  cases h with
  | skipped hdone => exact ⟨by simp, rfl⟩
  | failed hdone hsame hlog => exact ⟨by simp [hlog], hsame.repositories⟩
  | created hdone hurl hdeployments hsource hlog => exact ⟨by simp [hlog], by rw [hsource]⟩

/-- The second setup step notes nothing about the first. -/
lemma DeploymentSetUp.mem_sourceRepo {result : Except ReconcileError Unit}
    (h : DeploymentSetUp d n e (result, n') e' log) :
    SetupSteps.sourceRepo ∈ n'.steps.done ↔ SetupSteps.sourceRepo ∈ n.steps.done := by
  cases h with
  | skipped hdone => exact Iff.rfl
  | failed hdone hsame hlog => exact Iff.rfl
  | created hdone hurl hdeployments hsource hlog =>
    exact SetupSteps.mem_mark.trans (or_iff_left (by decide))

/-- When the question is asked, the push is noted. -/
lemma Converged.noted {scaled : Bool} (h : Converged generate c d n e (.ok scaled, n') e' log) :
    SetupSteps.sourceRepo ∈ n'.steps.done := by
  cases h with
  | asked h₁ h₂ hsame hlog => exact h₂.mem_sourceRepo.2 h₁.noted

/-- The effect that carrying out a setup step has under a name. -/
inductive StepEffect (name : String) : String → Effect → Prop where
  | push : StepEffect name SetupSteps.sourceRepo (.push name)
  | create : StepEffect name SetupSteps.provisioning (.create name)

lemma StepEffect.name_eq {name step : String} {x : Effect} (h : StepEffect name step x) :
    x.name = name := by
  cases h <;> rfl

/-- Every effect of an attempt is that of a setup step, under the name of its resources. -/
lemma RepositorySetUp.stepEffect {x : Except ReconcileError Unit × Notes}
    (h : RepositorySetUp generate c d n e x e' log) :
    ∀ y ∈ effects log, ∃ step, StepEffect d.name step y := by
  intro y hy
  cases h with
  | skipped hdone => cases hy
  | failed hdone hsame hlog => simp [hlog] at hy
  | pushed hdone hfiles hrepositories hurl hdeployments hlog =>
    obtain rfl : y = .push d.name := by simpa [hlog] using hy
    exact ⟨_, .push⟩

lemma DeploymentSetUp.stepEffect {x : Except ReconcileError Unit × Notes}
    (h : DeploymentSetUp d n e x e' log) :
    ∀ y ∈ effects log, ∃ step, StepEffect d.name step y := by
  intro y hy
  cases h with
  | skipped hdone => cases hy
  | failed hdone hsame hlog => simp [hlog] at hy
  | created hdone hurl hdeployments hsource hlog =>
    obtain rfl : y = .create d.name := by simpa [hlog] using hy
    exact ⟨_, .create⟩

lemma Converged.stepEffect {x : Except ReconcileError Bool × Notes}
    (h : Converged generate c d n e x e' log) :
    ∀ y ∈ effects log, ∃ step, StepEffect d.name step y := by
  intro y hy
  cases h with
  | unpushed h => exact h.stepEffect y hy
  | uncreated h₁ h₂ =>
    rw [effects_append] at hy
    exact (List.mem_append.1 hy).elim (h₁.stepEffect y) (h₂.stepEffect y)
  | asked h₁ h₂ hsame hlog =>
    rw [effects_append, effects_append, hlog, List.append_nil] at hy
    exact (List.mem_append.1 hy).elim (h₁.stepEffect y) (h₂.stepEffect y)

lemma Attempted.stepEffect {u : StatusUpdate} (h : Attempted generate c e u e' log) :
    ∀ y ∈ effects log, ∃ step, StepEffect (resourceName c.integration) step y := by
  intro y hy
  cases h with
  | untried hno => cases hy
  | @tried token result n' e' log htoken hvalid h =>
    rw [← descriptor_name c token.value e.mint.1]
    exact h.stepEffect y (by simpa [effects, Entry.effect?] using hy)

/-- A setup step is noted only if it took effect, now or before. -/
def NotesEffects (name : String) (n : Notes) (log : List Entry) (n' : Notes) : Prop :=
  ∀ step x, StepEffect name step x → step ∈ n'.steps.done → step ∈ n.steps.done ∨ x ∈ effects log

lemma NotesEffects.append {name : String} {n₁ : Notes} {l m : List Entry}
    (h : NotesEffects name n l n₁) (h' : NotesEffects name n₁ m n') :
    NotesEffects name n (l ++ m) n' := by
  intro step x hx hnoted
  rw [effects_append, List.mem_append]
  rcases h' step x hx hnoted with hbefore | hnow
  · exact (h step x hx hbefore).imp_right Or.inl
  · exact Or.inr (Or.inr hnow)

lemma RepositorySetUp.notesEffects {result : Except ReconcileError Unit}
    (h : RepositorySetUp generate c d n e (result, n') e' log) : NotesEffects d.name n log n' := by
  intro step x hx hnoted
  cases h with
  | skipped hdone => exact Or.inl hnoted
  | failed hdone hsame hlog => exact Or.inl hnoted
  | pushed hdone hfiles hrepositories hurl hdeployments hlog =>
    refine (SetupSteps.mem_mark.1 hnoted).imp_right fun hstep => ?_
    cases hx with
    | push => rw [hlog]; exact List.mem_singleton_self _
    | create => exact absurd hstep (by decide)

lemma DeploymentSetUp.notesEffects {result : Except ReconcileError Unit}
    (h : DeploymentSetUp d n e (result, n') e' log) : NotesEffects d.name n log n' := by
  intro step x hx hnoted
  cases h with
  | skipped hdone => exact Or.inl hnoted
  | failed hdone hsame hlog => exact Or.inl hnoted
  | created hdone hurl hdeployments hsource hlog =>
    refine (SetupSteps.mem_mark.1 hnoted).imp_right fun hstep => ?_
    cases hx with
    | push => exact absurd hstep (by decide)
    | create => rw [hlog]; exact List.mem_singleton_self _

lemma Converged.notesEffects {result : Except ReconcileError Bool}
    (h : Converged generate c d n e (result, n') e' log) : NotesEffects d.name n log n' := by
  cases h with
  | unpushed h => exact h.notesEffects
  | uncreated h₁ h₂ => exact h₁.notesEffects.append h₂.notesEffects
  | asked h₁ h₂ hsame hlog =>
    intro step x hx hnoted
    rw [effects_append, hlog, List.append_nil]
    exact h₁.notesEffects.append h₂.notesEffects step x hx hnoted

/-- A setup step that an attempt reports as done was done before, or took effect in the attempt. -/
lemma Attempted.notesEffects {u : StatusUpdate} (h : Attempted generate c e u e' log)
    {step : String} {x : Effect} (hx : StepEffect (resourceName c.integration) step x)
    (hnoted : step ∈ u.stepsDone) :
    step ∈ c.integration.stepsDone ∨ x ∈ effects log := by
  cases h with
  | untried hno => exact Or.inl hnoted
  | @tried token result n' e' log htoken hvalid h =>
    have hdone : step ∈ n'.steps.done := by
      rcases result with err | _ | _
      · exact hnoted
      · exact hnoted
      · simp [report] at hnoted
    rw [← descriptor_name c token.value e.mint.1] at hx
    rcases h.notesEffects step x hx hdone with hbefore | hnow
    · exact Or.inl (SetupSteps.mem_ofList.1 hbefore)
    · exact Or.inr (by simpa [effects, Entry.effect?] using hnow)

/-- What an attempt promotes is the revision it was called with, under its version. -/
lemma Attempted.of_promoted {u : StatusUpdate} (h : Attempted generate c e u e' log) {r : Revision}
    (hr : u.promoted = some r) :
    r.spec = c.revision.spec ∧ r.version = some (c.integration.versionFor c.revision) := by
  cases h with
  | untried hno => cases hr
  | @tried token result n _ log htoken hvalid h =>
    rcases result with err | _ | _
    · cases hr
    · cases hr
    · cases hr
      exact ⟨rfl, rfl⟩

/-- An attempt with a usable token that reports the integration as active promotes a revision. -/
lemma Attempted.exists_promoted {u : StatusUpdate} (h : Attempted generate c e u e' log)
    (hactive : u.state = .active) (htoken : c.integration.HasToken c.clock) :
    ∃ r, u.promoted = some r := by
  cases h with
  | untried hno => exact absurd htoken hno
  | tried htoken hvalid h =>
    obtain rfl := report_active hactive
    exact ⟨_, rfl⟩

end Noted

end Activation

end Convergence
